import Mathlib.Data.List.Perm.Basic
import Mathlib.Data.List.Nodup

/-!
# Looking up keys

Tables are lists of entries, and a lookup finds the first entry of a key. Where keys are distinct it
finds any entry, so the order of the entries does not matter.
-/

namespace TsxLint

variable {α β : Type} [BEq α] [LawfulBEq α]

/-- In a table whose keys are distinct, every entry is found under its key. -/
theorem lookup_of_nodup {l : List (α × β)} {a : α} {b : β} (hl : (l.map Prod.fst).Nodup)
    (hab : (a, b) ∈ l) : l.lookup a = some b := by
  induction l with
  | nil => simp at hab
  | cons e l ih =>
    rw [List.map_cons, List.nodup_cons] at hl
    rcases List.mem_cons.mp hab with rfl | hab
    · exact List.lookup_cons_self
    · have hne : (a == e.1) = false := by
        rw [beq_eq_false_iff_ne]
        rintro rfl
        exact hl.1 (List.mem_map.mpr ⟨_, hab, rfl⟩)
      rw [List.lookup_cons, hne, ih hl.2 hab]

theorem mem_of_lookup {l : List (α × β)} {a : α} {b : β} (h : l.lookup a = some b) :
    (a, b) ∈ l := by
  obtain ⟨before, after, rfl, -⟩ := List.lookup_eq_some_iff.mp h
  simp

theorem mem_keys_iff_lookup_ne_none {l : List (α × β)} {a : α} :
    a ∈ l.map Prod.fst ↔ l.lookup a ≠ none := by
  rw [← Option.isSome_iff_ne_none, List.lookup_isSome_iff, List.mem_map]
  simp only [beq_iff_eq, @eq_comm _ a]

/-- Leaving out some keys leaves what is found under the others. -/
theorem lookup_filter (p : α → Bool) (l : List (α × β)) (a : α) :
    (l.filter fun e => p e.1).lookup a = if p a then l.lookup a else none := by
  induction l with
  | nil => simp
  | cons e l ih =>
    rw [List.filter_cons]
    by_cases ha : a = e.1
    · subst ha
      cases hp : p e.1 with
      | true => rw [if_pos rfl, if_pos rfl, List.lookup_cons_self, List.lookup_cons_self]
      | false => simp [ih, hp]
    · have hne : (a == e.1) = false := beq_eq_false_iff_ne.mpr ha
      rw [List.lookup_cons, hne, ← ih]
      split
      · rw [List.lookup_cons, hne]
      · rfl

/-- In a table whose keys are distinct, the order of the entries does not matter. -/
theorem lookup_of_perm {l l' : List (α × β)} (hperm : l'.Perm l) (hnodup : (l.map Prod.fst).Nodup)
    (a : α) : l'.lookup a = l.lookup a := by
  have hnodup' := (hperm.map Prod.fst).nodup_iff.mpr hnodup
  refine Option.ext fun b => ⟨fun h => ?_, fun h => ?_⟩
  · exact lookup_of_nodup hnodup (hperm.mem_iff.mp (mem_of_lookup h))
  · exact lookup_of_nodup hnodup' (hperm.mem_iff.mpr (mem_of_lookup h))

/-! ### Reading the values -/

section

variable {γ : Type} {read : β → Option γ} {l : List (α × β)} {l' : List (α × γ)}

omit [BEq α] [LawfulBEq α] in
theorem keys_of_mapM (h : l.mapM (fun e => (read e.2).map fun c => (e.1, c)) = some l') :
    l'.map Prod.fst = l.map Prod.fst := by
  induction l generalizing l' with
  | nil => obtain rfl := Option.some.inj h; rfl
  | cons e l ih =>
    rw [List.mapM_cons] at h
    obtain ⟨e', he, h⟩ := Option.bind_eq_some_iff.mp h
    obtain ⟨l', hl, h⟩ := Option.bind_eq_some_iff.mp h
    obtain ⟨c, -, rfl⟩ := Option.map_eq_some_iff.mp he
    obtain rfl := Option.some.inj h
    rw [List.map_cons, List.map_cons, ih hl]

/-- Where every value of a table could be read, each is found as read. -/
theorem lookup_of_mapM (h : l.mapM (fun e => (read e.2).map fun c => (e.1, c)) = some l') (a : α) :
    l'.lookup a = (l.lookup a).bind read := by
  induction l generalizing l' with
  | nil => obtain rfl := Option.some.inj h; rfl
  | cons e l ih =>
    rw [List.mapM_cons] at h
    obtain ⟨e', he, h⟩ := Option.bind_eq_some_iff.mp h
    obtain ⟨l', hl, h⟩ := Option.bind_eq_some_iff.mp h
    obtain ⟨c, hc, rfl⟩ := Option.map_eq_some_iff.mp he
    obtain rfl := Option.some.inj h
    by_cases ha : a = e.1
    · rw [ha, List.lookup_cons_self, List.lookup_cons_self, Option.bind_some, hc]
    · have hne : (a == e.1) = false := beq_eq_false_iff_ne.mpr ha
      rw [List.lookup_cons, List.lookup_cons, hne, ih hl]

end

end TsxLint
