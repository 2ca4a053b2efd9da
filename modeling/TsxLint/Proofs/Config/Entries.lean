import Mathlib.Data.String.Basic
import Mathlib.Order.Bounds.Basic
import TsxLint.Config.Settings
import TsxLint.Proofs.Data.Lookup

/-!
# Entries by key

Setting the value under a key changes what is found under that key and nothing else, and keeps keys
distinct. Putting entries in the order of their keys changes nothing that can be looked up.

## Main results

* `lookup_setEntry`, `nodup_setEntry`: one value is set.
* `lookup_foldl_setEntry`, `nodup_foldl_setEntry`: values are set one after the other.
* `lookup_spelled_of_isGreatest`: of values set under spellings of their keys, which one stays.
* `lookup_byKey`, `byKey_sorted`: entries in order.
-/

namespace TsxLint

variable {α : Type}

/-! ### Setting values -/

theorem lookup_setEntry (entries : List (String × α)) (key : String) (value : α) (other : String) :
    (setEntry entries key value).lookup other =
      if other = key then some value else entries.lookup other := by
  rw [setEntry, List.lookup_append, lookup_filter (· != key)]
  by_cases h : other = key
  · rw [h, if_neg (by simp), if_pos rfl, List.lookup_cons_self, Option.none_or]
  · rw [if_pos (bne_iff_ne.mpr h), if_neg h, List.lookup_cons, beq_eq_false_iff_ne.mpr h,
      List.lookup_nil, Option.or_none]

theorem nodup_setEntry {entries : List (String × α)} (h : (entries.map Prod.fst).Nodup)
    (key : String) (value : α) : ((setEntry entries key value).map Prod.fst).Nodup := by
  rw [setEntry, List.map_append, List.map_singleton, List.nodup_append]
  refine ⟨(List.filter_sublist.map _).nodup h, List.nodup_singleton _, ?_⟩
  rintro _ hkept _ hkey rfl
  obtain ⟨e, he, rfl⟩ := List.mem_map.mp hkept
  have hne := (List.mem_filter.mp he).2
  simp [List.mem_singleton.mp hkey] at hne

/-- Of several values set under one key, the last one stays. -/
theorem lookup_foldl_setEntry (values entries : List (String × α)) (key : String) :
    (values.foldl (fun kept e => setEntry kept e.1 e.2) entries).lookup key =
      (values.reverse.lookup key).or (entries.lookup key) := by
  induction values generalizing entries with
  | nil => rfl
  | cons e values ih =>
    rw [List.foldl_cons, ih, lookup_setEntry, List.reverse_cons, List.lookup_append,
      Option.or_assoc]
    by_cases h : key = e.1
    · rw [h, if_pos rfl, List.lookup_cons_self, Option.some_or]
    · rw [if_neg h, List.lookup_cons, beq_eq_false_iff_ne.mpr h, List.lookup_nil, Option.none_or]

theorem nodup_foldl_setEntry (values : List (String × α)) {entries : List (String × α)}
    (h : (entries.map Prod.fst).Nodup) :
    ((values.foldl (fun kept e => setEntry kept e.1 e.2) entries).map Prod.fst).Nodup := by
  induction values generalizing entries with
  | nil => exact h
  | cons e values ih => exact ih (nodup_setEntry h e.1 e.2)

/-! ### Values set under other spellings of their keys -/

section

variable (spell : String → String) {entries : List (String × α)} {key : String}

/-- The value under a key that nothing spells is not set. -/
theorem lookup_spelled_of_forall_ne (h : ∀ k ∈ entries.map Prod.fst, spell k ≠ key) :
    (entries.map fun e => (spell e.1, e.2)).reverse.lookup key = none := by
  rw [List.lookup_eq_none_iff]
  intro spelled hspelled
  obtain ⟨e, he, rfl⟩ := List.mem_map.mp (List.mem_reverse.mp hspelled)
  exact bne_iff_ne.mpr (h e.1 (List.mem_map_of_mem he)).symm

/-- Of entries in the order of distinct keys, the one with the greatest key that spells another is
the last one set under it. -/
theorem lookup_spelled_of_isGreatest (hsorted : entries.Pairwise fun a b => a.1 ≤ b.1)
    (hnodup : (entries.map Prod.fst).Nodup) {greatest : String}
    (h : IsGreatest {k | k ∈ entries.map Prod.fst ∧ spell k = key} greatest) :
    (entries.map fun e => (spell e.1, e.2)).reverse.lookup key = entries.lookup greatest := by
  obtain ⟨⟨hmem, rfl⟩, hgreatest⟩ := h
  obtain ⟨e, he, rfl⟩ := List.mem_map.mp hmem
  rw [lookup_of_nodup hnodup he]
  obtain ⟨before, after, rfl⟩ := List.append_of_mem he
  -- What comes after the entry has a greater key, which spells something else.
  have hafter : (after.map fun e => (spell e.1, e.2)).reverse.lookup (spell e.1) = none := by
    refine lookup_spelled_of_forall_ne spell fun k hk hspell => ?_
    obtain ⟨later, hlater, rfl⟩ := List.mem_map.mp hk
    have hle : later.1 ≤ e.1 := hgreatest ⟨List.mem_map_of_mem (by simp [hlater]), hspell⟩
    have hge : e.1 ≤ later.1 :=
      (List.pairwise_cons.mp (List.pairwise_append.mp hsorted).2.1).1 later hlater
    rw [List.map_append, List.map_cons, List.nodup_append, List.nodup_cons] at hnodup
    exact hnodup.2.1.1 (le_antisymm hge hle ▸ List.mem_map_of_mem hlater)
  rw [List.map_append, List.map_cons, List.reverse_append, List.reverse_cons, List.append_assoc,
    List.lookup_append, hafter, Option.none_or]
  exact List.lookup_cons_self

end

/-! ### Entries in order -/

theorem byKey_perm (entries : List (String × α)) : (byKey entries).Perm entries :=
  List.mergeSort_perm _ _

theorem lookup_byKey {entries : List (String × α)} (h : (entries.map Prod.fst).Nodup)
    (key : String) : (byKey entries).lookup key = entries.lookup key :=
  lookup_of_perm (byKey_perm entries) h key

theorem byKey_sorted (entries : List (String × α)) :
    (byKey entries).Pairwise fun a b => a.1 ≤ b.1 := by
  have hle (a b : String × α) : (!decide (b.1 < a.1)) = true ↔ a.1 ≤ b.1 := by
    rw [Bool.not_eq_true', decide_eq_false_iff_not, not_lt]
  have hsorted : (byKey entries).Pairwise fun a b => (!decide (b.1 < a.1)) = true := by
    rw [byKey]
    refine List.pairwise_mergeSort ?_ ?_ entries
    · intro a b c hab hbc
      exact (hle a c).mpr (((hle a b).mp hab).trans ((hle b c).mp hbc))
    · intro a b
      rw [Bool.or_eq_true, hle, hle]
      exact le_total a.1 b.1
  exact hsorted.imp fun h => (hle _ _).mp h

end TsxLint
