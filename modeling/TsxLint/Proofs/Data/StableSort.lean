import Mathlib.Data.List.Basic
import Mathlib.Data.List.Pairwise

/-!
# Stable sorting

A stable sort leaves values that may stand in either order as it finds them. So what a sorted list
says about each class of such values determines it, and with that two lists sort to the same list if
they agree on each class, and a part of a list can be selected before it is sorted or after.

## Main results

* `StableSort.filter_tied_mergeSort`: sorting leaves ties as they are.
* `StableSort.eq_of_filter_tied`: the ties of a sorted list determine it.
* `StableSort.mergeSort_eq_of_filter_tied`, `StableSort.filter_mergeSort`: what follows.
* `StableSort.pairwise_mergeSort_of_pairwise`: how two values of a sorted list stand.
-/

namespace TsxLint.StableSort

variable {α : Type*} {le : α → α → Bool}

/-- Whether two values may stand in either order. -/
def tied (le : α → α → Bool) (a b : α) : Bool := le a b && le b a

theorem tied_iff {a b : α} : tied le a b = true ↔ le a b = true ∧ le b a = true := by
  rw [tied, Bool.and_eq_true]

section

variable (htotal : ∀ a b, (le a b || le b a) = true)
include htotal

theorem le_refl (a : α) : le a a = true := by
  simpa using htotal a a

theorem tied_self (a : α) : tied le a a = true :=
  tied_iff.mpr ⟨le_refl htotal a, le_refl htotal a⟩

theorem mem_iff_of_filter_tied {l l' : List α}
    (h : ∀ a, l.filter (tied le a) = l'.filter (tied le a)) (a : α) : a ∈ l ↔ a ∈ l' := by
  have hself := tied_self htotal a
  have hfilter : a ∈ l.filter (tied le a) ↔ a ∈ l'.filter (tied le a) := by rw [h a]
  simpa [List.mem_filter, hself] using hfilter

/-- Two sorted lists that agree on each class of ties are equal. -/
theorem eq_of_filter_tied {l l' : List α} (hl : l.Pairwise fun a b => le a b = true)
    (hl' : l'.Pairwise fun a b => le a b = true)
    (h : ∀ a, l.filter (tied le a) = l'.filter (tied le a)) : l = l' := by
  induction l generalizing l' with
  | nil =>
    refine (List.eq_nil_iff_forall_not_mem.mpr fun a ha => ?_).symm
    exact List.not_mem_nil ((mem_iff_of_filter_tied htotal h a).mpr ha)
  | cons a l ih =>
    have ha := (mem_iff_of_filter_tied htotal h a).mp List.mem_cons_self
    cases l' with
    | nil => exact absurd ha List.not_mem_nil
    | cons b l' =>
      have hb := (mem_iff_of_filter_tied htotal h b).mpr List.mem_cons_self
      rw [List.pairwise_cons] at hl hl'
      -- Each head stands in the other list, and so after the other head.
      have hab : le a b = true := by
        rcases List.mem_cons.mp hb with heq | hb
        · exact heq ▸ le_refl htotal b
        · exact hl.1 b hb
      have hba : le b a = true := by
        rcases List.mem_cons.mp ha with heq | ha
        · exact heq ▸ le_refl htotal a
        · exact hl'.1 a ha
      have hhead := h a
      rw [List.filter_cons_of_pos (tied_self htotal a),
        List.filter_cons_of_pos (tied_iff.mpr ⟨hab, hba⟩)] at hhead
      obtain rfl := (List.cons.inj hhead).1
      rw [ih hl.2 hl'.2 fun c => ?_]
      have hc := h c
      rw [List.filter_cons, List.filter_cons] at hc
      split_ifs at hc
      · exact (List.cons.inj hc).2
      · exact hc

variable (htrans : ∀ a b c, le a b = true → le b c = true → le a c = true)
include htrans

/-- Sorting leaves each class of ties as it is. -/
theorem filter_tied_mergeSort (l : List α) (a : α) :
    (l.mergeSort le).filter (tied le a) = l.filter (tied le a) := by
  have hties : (l.filter (tied le a)).Pairwise fun b c => le b c = true := by
    refine List.pairwise_of_forall_mem_list fun b hb c hc => ?_
    have hba := (tied_iff.mp (List.mem_filter.mp hb).2).2
    have hac := (tied_iff.mp (List.mem_filter.mp hc).2).1
    exact htrans b a c hba hac
  have hsublist :=
    (List.sublist_mergeSort htrans htotal hties List.filter_sublist).filter (tied le a)
  have hlength := ((List.mergeSort_perm l le).filter (tied le a)).length_eq
  rw [List.filter_filter] at hsublist
  simp only [Bool.and_self] at hsublist
  exact (hsublist.eq_of_length hlength.symm).symm

/-- Lists that agree on each class of ties sort to the same list. -/
theorem mergeSort_eq_of_filter_tied {l l' : List α}
    (h : ∀ a, l.filter (tied le a) = l'.filter (tied le a)) :
    l.mergeSort le = l'.mergeSort le := by
  refine eq_of_filter_tied htotal (List.pairwise_mergeSort htrans htotal l)
    (List.pairwise_mergeSort htrans htotal l') fun a => ?_
  rw [filter_tied_mergeSort htotal htrans, filter_tied_mergeSort htotal htrans, h a]

/-- A value stands before another one of a sorted list because it is smaller, or because it did so
before. -/
theorem pairwise_mergeSort_of_pairwise {R : α → α → Prop} {l : List α} (h : l.Pairwise R) :
    (l.mergeSort le).Pairwise fun a b => le a b = true ∧ (le b a = true → R a b) := by
  refine List.pairwise_iff_forall_sublist.mpr fun {a b} hpair => ?_
  have hab : le a b = true :=
    List.pairwise_iff_forall_sublist.mp (List.pairwise_mergeSort htrans htotal l) hpair
  refine ⟨hab, fun hba => ?_⟩
  -- Two ties stand among their ties as they did before.
  have hties := hpair.filter (tied le a)
  rw [filter_tied_mergeSort htotal htrans, List.filter_cons_of_pos (tied_self htotal a),
    List.filter_cons_of_pos (tied_iff.mpr ⟨hab, hba⟩)] at hties
  exact List.pairwise_iff_forall_sublist.mp h (hties.trans List.filter_sublist)

/-- Selecting and sorting commute. -/
theorem filter_mergeSort (p : α → Bool) (l : List α) :
    (l.mergeSort le).filter p = (l.filter p).mergeSort le := by
  refine eq_of_filter_tied htotal ((List.pairwise_mergeSort htrans htotal l).filter p)
    (List.pairwise_mergeSort htrans htotal _) fun a => ?_
  rw [filter_tied_mergeSort htotal htrans, List.filter_filter, List.filter_filter]
  simp only [Bool.and_comm]
  rw [← List.filter_filter, ← List.filter_filter, filter_tied_mergeSort htotal htrans]

end

end TsxLint.StableSort
