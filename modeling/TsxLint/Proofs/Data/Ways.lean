import Mathlib.Data.List.Duplicate
import Mathlib.Data.List.Nodup

/-!
# Lists with an entry for each way

A search that goes through a structure in several ways lists what it finds once for each of them.
A list then repeats an entry exactly if there are two ways to it. The ways are not part of the list,
so the statement that a list has one entry for each way says which list with the ways would be.

## Main definitions

* `ListsWays`: a list has an entry for each way.

## Main results

* `ListsWays.duplicate_iff`: an entry is repeated exactly if there are two ways to it.
* `ListsWays.filterMap`, `ListsWays.flatMap`: what is listed from lists with an entry for each way.
-/

namespace TsxLint

variable {α β γ δ : Type}

/-- The list has exactly one entry for each way `a` to an entry `b`. -/
def ListsWays (R : α → β → Prop) (l : List β) : Prop :=
  ∃ ways : List (α × β), ways.Nodup ∧ (∀ a b, (a, b) ∈ ways ↔ R a b) ∧ ways.map Prod.snd = l

namespace ListsWays

variable {R : α → β → Prop} {l : List β}

theorem congr (h : ListsWays R l) {R' : α → β → Prop} (hR : ∀ a b, R a b ↔ R' a b) :
    ListsWays R' l := by
  obtain ⟨ways, hnodup, hways, hl⟩ := h
  exact ⟨ways, hnodup, fun a b => (hways a b).trans (hR a b), hl⟩

/-! ### Repeated entries -/

theorem duplicate_map_snd {b : β} {ways : List (α × β)} (hnodup : ways.Nodup) :
    List.Duplicate b (ways.map Prod.snd) ↔
      ∃ a a', a ≠ a' ∧ (a, b) ∈ ways ∧ (a', b) ∈ ways := by
  induction ways with
  | nil => simp
  | cons way ways ih =>
    obtain ⟨first, found⟩ := way
    rw [List.nodup_cons] at hnodup
    rw [List.map_cons, List.duplicate_cons_iff, ih hnodup.2]
    constructor
    · rintro (⟨rfl, hmem⟩ | ⟨a, a', hne, ha, ha'⟩)
      · obtain ⟨⟨a, b⟩, hway, rfl⟩ := List.mem_map.mp hmem
        refine ⟨first, a, ?_, List.mem_cons_self, List.mem_cons_of_mem _ hway⟩
        rintro rfl
        exact hnodup.1 hway
      · exact ⟨a, a', hne, List.mem_cons_of_mem _ ha, List.mem_cons_of_mem _ ha'⟩
    · rintro ⟨a, a', hne, ha, ha'⟩
      rcases List.mem_cons.mp ha with heq | hmem
      · obtain ⟨rfl, rfl⟩ := Prod.mk.inj heq
        rcases List.mem_cons.mp ha' with heq' | hmem'
        · exact absurd (Prod.mk.inj heq').1.symm hne
        · exact Or.inl ⟨rfl, List.mem_map.mpr ⟨(a', b), hmem', rfl⟩⟩
      · rcases List.mem_cons.mp ha' with heq' | hmem'
        · obtain ⟨rfl, rfl⟩ := Prod.mk.inj heq'
          exact Or.inl ⟨rfl, List.mem_map.mpr ⟨(a, b), hmem, rfl⟩⟩
        · exact Or.inr ⟨a, a', hne, hmem, hmem'⟩

/-- An entry is repeated exactly if there are two ways to it. -/
theorem duplicate_iff (h : ListsWays R l) {b : β} :
    List.Duplicate b l ↔ ∃ a a', a ≠ a' ∧ R a b ∧ R a' b := by
  obtain ⟨ways, hnodup, hways, rfl⟩ := h
  simp only [duplicate_map_snd hnodup, hways]

/-- Two lists without a common entry repeat together what each of them repeats. -/
theorem duplicate_append_iff {l' : List β} {b : β} (h : b ∈ l → b ∉ l') :
    List.Duplicate b (l ++ l') ↔ List.Duplicate b l ∨ List.Duplicate b l' := by
  classical
  simp only [List.duplicate_iff_two_le_count, List.count_append]
  by_cases hmem : b ∈ l
  · rw [List.count_eq_zero_of_not_mem (h hmem)]
    omega
  · rw [List.count_eq_zero_of_not_mem hmem]
    omega

/-! ### Building lists -/

/-- There is nothing in the empty list. -/
theorem nil (hR : ∀ a b, ¬ R a b) : ListsWays R [] :=
  ⟨[], List.nodup_nil, fun a b => by simpa using hR a b, rfl⟩

/-- A list without repetition has one way to each entry. -/
theorem of_nodup (a : α) (h : l.Nodup) : ListsWays (fun a' b => a' = a ∧ b ∈ l) l := by
  refine ⟨l.map (a, ·), h.map fun b b' heq => (Prod.mk.inj heq).2, fun a' b => ?_, ?_⟩
  · simp [eq_comm, and_comm]
  · rw [List.map_map]
    exact List.map_id l

theorem append {R' : α → β → Prop} {l' : List β} (h : ListsWays R l) (h' : ListsWays R' l')
    (hdisjoint : ∀ a b, R a b → ¬ R' a b) :
    ListsWays (fun a b => R a b ∨ R' a b) (l ++ l') := by
  obtain ⟨ways, hnodup, hways, rfl⟩ := h
  obtain ⟨ways', hnodup', hways', rfl⟩ := h'
  refine ⟨ways ++ ways', ?_, fun a b => by simp [hways, hways'], List.map_append⟩
  refine List.nodup_append'.mpr ⟨hnodup, hnodup', ?_⟩
  rintro ⟨a, b⟩ hmem hmem'
  exact hdisjoint a b ((hways a b).mp hmem) ((hways' a b).mp hmem')

/-- Ways may be written otherwise, if they are still told apart. -/
theorem map (h : ListsWays R l) (g : α → γ)
    (hg : ∀ a a' b b', R a b → R a' b' → g a = g a' → a = a') :
    ListsWays (fun c b => ∃ a, c = g a ∧ R a b) l := by
  obtain ⟨ways, hnodup, hways, rfl⟩ := h
  refine ⟨ways.map fun way => (g way.1, way.2), ?_, fun c b => ?_, by simp⟩
  · refine hnodup.map_on ?_
    rintro ⟨a, b⟩ hmem ⟨a', b'⟩ hmem' heq
    obtain ⟨hga, rfl⟩ := Prod.mk.inj heq
    rw [hg a a' b b ((hways a b).mp hmem) ((hways a' b).mp hmem') hga]
  · simp only [List.mem_map, Prod.mk.injEq, Prod.exists]
    constructor
    · rintro ⟨a, b', hmem, rfl, rfl⟩
      exact ⟨a, rfl, (hways a b').mp hmem⟩
    · rintro ⟨a, rfl, hab⟩
      exact ⟨a, b, (hways a b).mpr hab, rfl, rfl⟩

/-- What is read off the entries is listed in as many ways, each through an entry. -/
theorem filterMap (h : ListsWays R l) (f : β → Option δ) :
    ListsWays (fun (way : α × β) d => R way.1 way.2 ∧ f way.2 = some d) (l.filterMap f) := by
  obtain ⟨ways, hnodup, hways, rfl⟩ := h
  refine ⟨ways.filterMap fun way => (f way.2).map fun d => (way, d), ?_, ?_, ?_⟩
  · refine hnodup.filterMap ?_
    rintro way way' ⟨found, d⟩ hway hway'
    obtain ⟨e, -, he⟩ := Option.map_eq_some_iff.mp hway
    obtain ⟨e', -, he'⟩ := Option.map_eq_some_iff.mp hway'
    exact (Prod.mk.inj he).1.trans (Prod.mk.inj he').1.symm
  · rintro ⟨a, b⟩ d
    simp only [List.mem_filterMap, Option.map_eq_some_iff, Prod.mk.injEq]
    constructor
    · rintro ⟨way, hmem, e, he, rfl, rfl⟩
      exact ⟨(hways a b).mp hmem, he⟩
    · rintro ⟨hab, hd⟩
      exact ⟨(a, b), (hways a b).mpr hab, d, hd, rfl, rfl⟩
  · rw [List.map_filterMap, List.filterMap_map]
    refine List.filterMap_congr fun way _ => ?_
    cases hway : f way.2 with
    | none => simp [hway]
    | some d => simp [hway]

/-- Lists with an entry for each way give one together, where the ways start with the list that they
belong to. -/
theorem flatMap {xs : List γ} (hxs : xs.Nodup) {R : γ → α → β → Prop} {F : γ → List β}
    (h : ∀ x ∈ xs, ListsWays (R x) (F x)) :
    ListsWays (fun (way : γ × α) b => way.1 ∈ xs ∧ R way.1 way.2 b) (xs.flatMap F) := by
  induction xs with
  | nil => exact nil fun way b hway => absurd hway.1 List.not_mem_nil
  | cons x xs ih =>
    rw [List.nodup_cons] at hxs
    have hfirst := (h x List.mem_cons_self).map (x, ·) fun a a' _ _ _ _ heq =>
      (Prod.mk.inj heq).2
    have hrest := ih hxs.2 fun y hy => h y (List.mem_cons_of_mem x hy)
    rw [List.flatMap_cons]
    refine (hfirst.append hrest ?_).congr ?_
    · rintro way b ⟨a, rfl, -⟩ ⟨hmem, -⟩
      exact hxs.1 hmem
    · rintro ⟨y, a⟩ b
      constructor
      · rintro (⟨a', heq, hab⟩ | ⟨hmem, hab⟩)
        · obtain ⟨rfl, rfl⟩ := Prod.mk.inj heq
          exact ⟨List.mem_cons_self, hab⟩
        · exact ⟨List.mem_cons_of_mem x hmem, hab⟩
      · rintro ⟨hmem, hab⟩
        rcases List.mem_cons.mp hmem with heq | hmem
        · obtain rfl : y = x := heq
          exact Or.inl ⟨a, rfl, hab⟩
        · exact Or.inr ⟨hmem, hab⟩

end ListsWays

end TsxLint
