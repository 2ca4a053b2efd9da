import Mathlib.Data.List.Induction
import Mathlib.Data.List.Nodup
import TsxLint.Component.Graph
import TsxLint.Rule.Compound

/-!
# First occurrences

Two folds keep what they have not met before: one drops repeated names, the other elements whose key
was met. Both follow the last element of the list: it is added if it is new. So the names that are
kept are the members of the list, once each, in the order in which they first occur.

## Main definitions

* `ListsFirsts`: a list of the members of another one in order of first occurrence.

## Main results

* `ListsFirsts.pairwise_of_filter`: selected members come in the order of the whole list.
* `ComponentGraph.dedup_listsFirsts`: names without later repetitions are listed like this.
* `CompoundExport.firstByKey_listsFirsts`: and so are the keys of what is first with its key.
-/

namespace TsxLint

section

variable {α : Type} [DecidableEq α]

/-- The members of a list, once each, in the order in which they first occur in it. -/
structure ListsFirsts (l firsts : List α) : Prop where
  nodup : firsts.Nodup
  mem_iff : ∀ a, a ∈ firsts ↔ a ∈ l
  inOrder : firsts.Pairwise fun a b => l.idxOf a < l.idxOf b

/-- Leaving out other members does not change which of two occurs first. -/
theorem idxOf_filter_lt_iff {l : List α} {p : α → Bool} {a b : α} (ha : p a = true)
    (hb : p b = true) :
    (l.filter p).idxOf a < (l.filter p).idxOf b ↔ l.idxOf a < l.idxOf b := by
  induction l with
  | nil => rfl
  | cons c l ih =>
    by_cases hc : p c = true
    · rw [List.filter_cons_of_pos hc, List.idxOf_cons, List.idxOf_cons, List.idxOf_cons,
        List.idxOf_cons]
      cases hca : c == a <;> cases hcb : c == b <;> simp [ih]
    · have hne {d : α} (hd : p d = true) : c ≠ d := by
        rintro rfl
        exact hc hd
      rw [List.filter_cons_of_neg hc, List.idxOf_cons_ne l (hne ha), List.idxOf_cons_ne l (hne hb),
        ih]
      exact Nat.succ_lt_succ_iff.symm

namespace ListsFirsts

variable {l firsts : List α}

theorem nil : ListsFirsts ([] : List α) [] := ⟨.nil, fun _ => Iff.rfl, .nil⟩

/-- Members occur first where they did when the list grows. -/
theorem pairwise_concat (h : ListsFirsts l firsts) (a : α) :
    firsts.Pairwise fun b c => (l ++ [a]).idxOf b < (l ++ [a]).idxOf c := by
  refine h.inOrder.imp_of_mem fun hb hc hlt => ?_
  rwa [List.idxOf_append_of_mem ((h.mem_iff _).mp hb),
    List.idxOf_append_of_mem ((h.mem_iff _).mp hc)]

theorem concat_of_mem (h : ListsFirsts l firsts) {a : α} (ha : a ∈ firsts) :
    ListsFirsts (l ++ [a]) firsts where
  nodup := h.nodup
  mem_iff := by
    intro b
    rw [h.mem_iff, List.mem_append, List.mem_singleton]
    refine ⟨Or.inl, fun hb => hb.elim id ?_⟩
    rintro rfl
    exact (h.mem_iff b).mp ha
  inOrder := h.pairwise_concat a

theorem concat_of_not_mem (h : ListsFirsts l firsts) {a : α} (ha : a ∉ firsts) :
    ListsFirsts (l ++ [a]) (firsts ++ [a]) where
  nodup := List.nodup_append.mpr ⟨h.nodup, List.nodup_singleton a, by
    rintro b hb c hc rfl
    exact ha (List.mem_singleton.mp hc ▸ hb)⟩
  mem_iff := by
    intro b
    rw [List.mem_append, List.mem_append, h.mem_iff]
  inOrder := by
    refine List.pairwise_append.mpr ⟨h.pairwise_concat a, List.pairwise_singleton _ _, ?_⟩
    intro b hb c hc
    obtain rfl := List.mem_singleton.mp hc
    have hbl := (h.mem_iff b).mp hb
    rw [List.idxOf_append_of_mem hbl,
      List.idxOf_append_of_notMem fun hcl => ha ((h.mem_iff c).mpr hcl)]
    exact Nat.lt_of_lt_of_le (List.idxOf_lt_length_of_mem hbl) (Nat.le_add_right _ _)

/-- Selected members occur first in the same order where the others are not left out. -/
theorem pairwise_of_filter {p : α → Bool} (h : ListsFirsts (l.filter p) firsts) :
    firsts.Pairwise fun a b => l.idxOf a < l.idxOf b := by
  have hp {a : α} (ha : a ∈ firsts) : p a = true := (List.mem_filter.mp ((h.mem_iff a).mp ha)).2
  exact h.inOrder.imp_of_mem fun ha hb hlt => (idxOf_filter_lt_iff (hp ha) (hp hb)).mp hlt

end ListsFirsts

end

namespace ComponentGraph

theorem dedup_concat (names : List String) (name : String) :
    dedup (names ++ [name]) =
      if name ∈ dedup names then dedup names else dedup names ++ [name] := by
  simp [dedup]

theorem dedup_listsFirsts (names : List String) : ListsFirsts names (dedup names) := by
  induction names using List.reverseRecOn with
  | nil => exact .nil
  | append_singleton names name ih =>
    rw [dedup_concat]
    split_ifs with h
    · exact ih.concat_of_mem h
    · exact ih.concat_of_not_mem h

theorem mem_dedup {names : List String} {name : String} : name ∈ dedup names ↔ name ∈ names :=
  (dedup_listsFirsts names).mem_iff name

end ComponentGraph

namespace CompoundExport

variable {α : Type} {key : α → String}

theorem firstByKey_concat (items : List α) (a : α) :
    firstByKey key (items ++ [a]) =
      if key a ∈ (firstByKey key items).map key then firstByKey key items
      else firstByKey key items ++ [a] := by
  simp [firstByKey]

/-- What is first with its key is among the elements. -/
theorem mem_of_mem_firstByKey {items : List α} {a : α} (h : a ∈ firstByKey key items) :
    a ∈ items := by
  induction items using List.reverseRecOn with
  | nil => exact h
  | append_singleton items b ih =>
    rw [firstByKey_concat] at h
    rw [List.mem_append]
    split_ifs at h
    · exact Or.inl (ih h)
    · exact (List.mem_append.mp h).imp_left ih

theorem firstByKey_listsFirsts (items : List α) :
    ListsFirsts (items.map key) ((firstByKey key items).map key) := by
  induction items using List.reverseRecOn with
  | nil => exact .nil
  | append_singleton items a ih =>
    rw [firstByKey_concat, List.map_append, List.map_singleton]
    split_ifs with h
    · exact ih.concat_of_mem h
    · rw [List.map_append, List.map_singleton]
      exact ih.concat_of_not_mem h

end CompoundExport

end TsxLint
