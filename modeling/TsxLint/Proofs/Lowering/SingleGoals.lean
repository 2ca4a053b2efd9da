import Mathlib.Data.List.Forall2
import TsxLint.Proofs.Lowering.Forms
import TsxLint.Proofs.Lowering.Plans

/-!
# Goals that give one node

A pattern, a target or an expression is one node, and so is a rest element: lowering for these goals
neither drops what it is asked for nor makes more than one node of it.

## Main definitions

* `Goal.isExact`: the goals that give one node.
* `Step.IsExact`: steps that make one node.
* `Cst.Becomes`: the node that a concrete node becomes.

## Main results

* `Cst.lower_giveOne`: lowering for such a goal gives one node.
* `Cst.forall₂_becomes`: so do children that are lowered one after the other.
-/

namespace TsxLint

/-- Whether lowering for a goal gives exactly one node. -/
def Goal.isExact : Goal → Bool
  | expression | pattern | target | rest => true
  | _ => false

theorem Cst.lowerEach_eq_map (cs : List Cst) : Cst.lowerEach cs = cs.map Cst.lower := by
  induction cs with
  | nil => rfl
  | cons c cs ih => rw [lowerEach, ih, List.map_cons]

namespace Step

/-- Whether a step makes exactly one node, if lowering a child for a goal that gives one does. -/
def IsExact (children : List Cst) : Step → Prop
  | .node .. => True
  | .child _ index goal => goal.isExact = true ∧ index < children.length
  | .lost _ => False

/-- Lowerings that give one node for every goal that has one. -/
def GiveOne (lower : Lowering) : Prop :=
  ∀ goal role next, goal.isExact = true → ∃ n, (lower goal role next).1 = [n]

theorem IsExact.exists_run_eq {children : List Cst} {kids : List Lowering}
    (hlen : kids.length = children.length) (hkids : ∀ lower ∈ kids, GiveOne lower) {step : Step}
    (h : step.IsExact children) (next : Nat) : ∃ n, (run kids step next).1 = [n] := by
  cases step with
  | node role kind span parts => exact ⟨_, rfl⟩
  | child role index goal =>
    obtain ⟨hgoal, hindex⟩ := h
    rw [← hlen] at hindex
    simp only [run, List.getElem?_eq_getElem hindex]
    exact hkids _ (List.getElem_mem hindex) goal role next hgoal
  | lost steps => exact h.elim

end Step

namespace Plan

open Step

variable {role : Role} {c : Cst}

theorem isExact_as {k : Kid} {goal : Goal} (hk : k ∈ c.kids) (hgoal : goal.isExact = true) :
    (k.as role goal).IsExact c.children :=
  ⟨hgoal, (List.getElem?_eq_some_iff.mp (Cst.getElem?_of_mem_kids hk)).1⟩

theorem isExact_orElse {goal : Goal} (hgoal : goal.isExact = true) {k : Option Kid} {other : Step}
    (hk : ∀ kid ∈ k, kid ∈ c.kids) (hother : other.IsExact c.children) :
    (orElse k role goal other).IsExact c.children := by
  cases k with
  | none => exact hother
  | some kid => exact isExact_as (hk kid rfl) hgoal

theorem isExact_firstNamed? {goal : Goal} (hgoal : goal.isExact = true) :
    (orElse c.firstNamed? role goal (unknown role c)).IsExact c.children :=
  isExact_orElse hgoal (fun _ hk => Cst.mem_kids_of_firstNamed? hk) trivial

theorem isExact_expr (role : Role) (c : Cst) : (expr role c).IsExact c.children := by
  fun_cases expr role c
  case case39 => exact isExact_firstNamed? rfl
  case case40 | case41 | case42 => fun_cases jsx role c <;> trivial
  all_goals trivial

theorem isExact_pattern (role : Role) (c : Cst) : (pattern role c).IsExact c.children := by
  fun_cases pattern role c
  case case12 => exact isExact_firstNamed? rfl
  case case13 => exact isExact_expr role c
  all_goals trivial

theorem isExact_target (role : Role) (c : Cst) : (target role c).IsExact c.children := by
  fun_cases target role c
  case case5 | case6 | case7 | case8 => exact isExact_pattern role c
  case case9 | case10 => exact isExact_firstNamed? rfl
  case case11 => exact isExact_expr role c
  all_goals trivial

/-- The plan for a goal that gives one node is one step that makes it. -/
theorem exists_of_isExact {goal : Goal} (hgoal : goal.isExact = true) (role : Role) (c : Cst) :
    ∃ s, steps goal role c = [s] ∧ s.IsExact c.children := by
  cases goal with
  | expression => exact ⟨_, rfl, isExact_expr role c⟩
  | pattern => exact ⟨_, rfl, isExact_pattern role c⟩
  | target => exact ⟨_, rfl, isExact_target role c⟩
  | rest => exact ⟨_, rfl, trivial⟩
  | _ => cases hgoal

end Plan

mutual

theorem Cst.lower_giveOne : (c : Cst) → Step.GiveOne c.lower
  | ⟨kind, isNamed, field, span, text, children⟩ => by
    intro goal role next hgoal
    obtain ⟨s, hs, hexact⟩ :=
      Plan.exists_of_isExact hgoal role ⟨kind, isNamed, field, span, text, children⟩
    obtain ⟨n, hn⟩ := hexact.exists_run_eq (by rw [Cst.lowerEach_eq_map, List.length_map])
      (Cst.lowerEach_giveOne children) next
    rw [Cst.lower]
    simp only [hs, Step.runAll, hn, List.append_nil]
    exact ⟨n, rfl⟩

theorem Cst.lowerEach_giveOne : (cs : List Cst) → ∀ lower ∈ Cst.lowerEach cs, Step.GiveOne lower
  | [], lower, h => by simp [Cst.lowerEach] at h
  | c :: cs, lower, h => by
    rw [Cst.lowerEach] at h
    rcases List.mem_cons.mp h with rfl | h
    · exact Cst.lower_giveOne c
    · exact Cst.lowerEach_giveOne cs lower h

end

/-! ### Nodes from children -/

namespace Cst

/-- A concrete node becomes a node for a goal and under a role, its number left open. -/
def Becomes (c : Cst) (goal : Goal) (role : Role) (n : Node) : Prop :=
  ∃ next, (c.lower goal role next).1 = [n]

variable {c : Cst} {goal : Goal} {role : Role}

/-- What a concrete node becomes has the role that was asked for. -/
theorem Becomes.role_eq {n : Node} (h : c.Becomes goal role n) : n.role = role := by
  obtain ⟨next, hn⟩ := h
  exact c.lower_lowers.role (hn ▸ List.mem_singleton_self n)

theorem exists_run_as_eq (hgoal : goal.isExact = true) {k : Kid} (hk : k ∈ c.kids) (role : Role)
    (next : Nat) :
    ∃ n, (Step.run (lowerEach c.children) (k.as role goal) next).1 = [n] ∧
      k.tree.Becomes goal role n := by
  have hlower : (lowerEach c.children)[k.index]? = some k.tree.lower := by
    rw [lowerEach_eq_map, List.getElem?_map, getElem?_of_mem_kids hk, Option.map_some]
  obtain ⟨n, hn⟩ := k.tree.lower_giveOne goal role next hgoal
  refine ⟨n, ?_, next, hn⟩
  simp only [Kid.as, Step.run, hlower, hn]

/-- Children that are lowered for goals that give one node become one node each, in order. -/
theorem forall₂_becomes {goal : Kid → Goal} {role : Kid → Role}
    (hgoal : ∀ k, (goal k).isExact = true) {ks : List Kid} (hks : ∀ k ∈ ks, k ∈ c.kids)
    (next : Nat) :
    List.Forall₂ (fun k n => k.tree.Becomes (goal k) (role k) n) ks
      (Step.runAll (lowerEach c.children) (ks.map fun k => k.as (role k) (goal k)) next).1 := by
  induction ks generalizing next with
  | nil => exact .nil
  | cons k ks ih =>
    obtain ⟨hk, hks⟩ := List.forall_mem_cons.mp hks
    obtain ⟨n, hn, hbecomes⟩ := exists_run_as_eq (hgoal k) hk (role k) next
    rw [List.map_cons, Step.runAll]
    simp only [hn, List.singleton_append]
    exact .cons hbecomes (ih hks _)

end Cst

end TsxLint
