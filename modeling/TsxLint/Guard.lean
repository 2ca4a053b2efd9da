/-!
# Names on the current path

A `Guard` holds the names that a walk through recursive definitions is working on. A name that is
still in progress is refused, which is how walks through mutually recursive aliases and cyclic
component graphs end. A name that is left again is no longer in progress, so a walk that leaves what
it enters hands its guard back unchanged (`leave_enter`).
-/

namespace TsxLint

/-- The names in progress, the latest first. -/
structure Guard where
  active : List String
  deriving DecidableEq, Repr, Inhabited

namespace Guard

/-- The guard of a walk that has not started. -/
def empty : Guard := ⟨[]⟩

/-- Whether a name is in progress. -/
def isActive (guard : Guard) (name : String) : Bool := guard.active.contains name

/-- Marks a name as in progress; the flag says whether it was not yet. -/
def enter (guard : Guard) (name : String) : Bool × Guard :=
  if guard.isActive name then (false, guard) else (true, ⟨name :: guard.active⟩)

/-- Marks a name as done. -/
def leave (guard : Guard) (name : String) : Guard := ⟨guard.active.filter (· != name)⟩

/-- Runs `body` with the name in progress, or answers `onCycle` when it already is. -/
def guarded {α : Type} (guard : Guard) (name : String) (onCycle : α) (body : Guard → α) : α :=
  if guard.isActive name then onCycle else body (guard.enter name).2

/-- How many of `names` are not in progress: what is left for a walk to enter. -/
def unvisited (guard : Guard) (names : List String) : Nat :=
  (names.filter fun name => !guard.isActive name).length

theorem isActive_enter (guard : Guard) (name other : String) :
    (guard.enter name).2.isActive other = (other == name || guard.isActive other) := by
  unfold enter
  split
  · rename_i h
    by_cases ho : other = name
    · simp [ho, h]
    · simp [ho]
  · simp only [isActive, List.contains_cons]

theorem isActive_eq_false_iff {guard : Guard} {name : String} :
    guard.isActive name = false ↔ name ∉ guard.active := by
  simp [isActive]

theorem active_enter {guard : Guard} {name : String} (idle : guard.isActive name = false) :
    (guard.enter name).2.active = name :: guard.active := by
  rw [enter, if_neg (by simp [idle])]

/-- Leaving a name that was just entered restores the guard. -/
theorem leave_enter {guard : Guard} {name : String} (idle : guard.isActive name = false) :
    (guard.enter name).2.leave name = guard := by
  obtain ⟨active⟩ := guard
  have absent : name ∉ active := by simpa [isActive] using idle
  have kept : active.filter (· != name) = active := by
    rw [List.filter_eq_self]
    intro other mem
    simpa using fun eq : other = name => absent (eq ▸ mem)
  simp [enter, leave, idle, kept]

/-- Entering a name that was waiting leaves fewer names waiting. -/
theorem unvisited_enter_lt {guard : Guard} {name : String} {names : List String}
    (mem : name ∈ names) (idle : guard.isActive name = false) :
    (guard.enter name).2.unvisited names < guard.unvisited names := by
  unfold unvisited
  have sub : ∀ other, (!(guard.enter name).2.isActive other) = true →
      (!guard.isActive other) = true := by
    intro other h
    rw [isActive_enter] at h
    simp only [Bool.not_eq_true', Bool.or_eq_false_iff] at h
    simp [h.2]
  induction names with
  | nil => cases mem
  | cons head tail ih =>
    have le : (tail.filter fun other => !(guard.enter name).2.isActive other).length ≤
        (tail.filter fun other => !guard.isActive other).length := by
      rw [← List.countP_eq_length_filter, ← List.countP_eq_length_filter]
      exact List.countP_mono_left fun other _ h => sub other h
    by_cases eq : head = name
    · subst eq
      simp only [List.filter_cons, isActive_enter, BEq.rfl, Bool.true_or, Bool.not_true, idle,
        Bool.not_false, if_true, List.length_cons]
      exact Nat.lt_succ_of_le (by simpa [isActive_enter] using le)
    · have later : name ∈ tail := by
        rcases List.mem_cons.1 mem with h | h
        · exact absurd h.symm eq
        · exact h
      have lt := ih later
      simp only [List.filter_cons]
      split
      · rename_i h
        rw [if_pos (sub head h), List.length_cons, List.length_cons]
        exact Nat.succ_lt_succ lt
      · split
        · rw [List.length_cons]
          exact Nat.lt_succ_of_lt lt
        · exact lt

end Guard

end TsxLint
