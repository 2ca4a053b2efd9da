import TsxLint.Proofs.Lowering.NodeForms

/-!
# Parts that type declarations and types around a type cannot do without

The typed tree does not say which parts a node has. For most nodes any part can be missing, since
files that do not parse are lowered as well. Where a part must not be missing, the plan of a
concrete node without it makes a different node. So in a lowered file every interface and every
alias has a name, and every alias, like every type around another one, holds exactly one type.

## Main definitions

* `Lowering.GivesType`: lowering for a type gives one node.
* `Node.HasTypeParts`: the parts of a node of one of these kinds.

## Main results

* `Cst.lower_givesType`: lowering a type gives one node.
* `Program.ofCst_hasTypeParts`: in a lowered file every node has the parts it needs.
-/

namespace TsxLint

namespace Plan

open Step

/-- A type is a node, or the type that one of its children is. -/
theorem type_eq_node_or_as (role : Role) (c : Cst) :
    (∃ kind span parts, type role c = .node role kind span parts) ∨
      ∃ k ∈ c.kids, type role c = k.as role .type := by
  fun_cases type role c
  case case1 | case2 | case3 =>
    cases hk : c.firstNamed? with
    | none => exact Or.inl ⟨_, _, _, rfl⟩
    | some k => exact Or.inr ⟨k, Cst.mem_kids_of_firstNamed? hk, rfl⟩
  case case25 =>
    fun_cases literalType role c <;> exact Or.inl ⟨_, _, _, rfl⟩
  all_goals exact Or.inl ⟨_, _, _, rfl⟩

end Plan

/-! ### What lowering a type gives -/

/-- Lowering for a type gives one node. -/
def Lowering.GivesType (lower : Lowering) : Prop :=
  ∀ role next, ∃ n, (lower .type role next).1 = [n] ∧ n.role = role

/-- Each of the children is lowered, and for a type to one node. -/
def GiveTypes (children : List Cst) (kids : List Lowering) : Prop :=
  ∀ (index : Nat) (child : Cst), children[index]? = some child →
    ∃ lower, kids[index]? = some lower ∧ lower.GivesType

namespace Step

variable {c : Cst} {kids : List Lowering} (hkids : GiveTypes c.children kids)

include hkids

theorem run_as_type {k : Kid} (hk : k ∈ c.kids) (role : Role) (next : Nat) :
    ∃ n, (run kids (k.as role .type) next).1 = [n] ∧ n.role = role := by
  obtain ⟨lower, hlower, hgives⟩ := hkids k.index k.tree (Cst.getElem?_of_mem_kids hk)
  rw [Kid.as, run, hlower]
  exact hgives role next

theorem run_typeOr {k : Option Kid} (hk : ∀ k' ∈ k, k' ∈ c.kids) (role : Role) (parent : Cst)
    (next : Nat) : ∃ n, (run kids (typeOr role k parent) next).1 = [n] ∧ n.role = role := by
  cases k with
  | none => exact ⟨_, rfl, rfl⟩
  | some k => exact run_as_type hkids (hk k rfl) role next

end Step

mutual

/-- Lowering a type gives one node, of the role that was asked for. -/
theorem Cst.lower_givesType : (c : Cst) → Lowering.GivesType c.lower
  | ⟨kind, isNamed, field, span, text, children⟩ => by
    intro role next
    have hkids : GiveTypes (Cst.mk kind isNamed field span text children).children _ :=
      Cst.lowerEach_giveTypes children
    rw [Cst.lower]
    change ∃ n, (Step.runAll _ [Plan.type role _] next).1 = [n] ∧ n.role = role
    rcases Plan.type_eq_node_or_as role ⟨kind, isNamed, field, span, text, children⟩ with
      ⟨kind', span', parts, htype⟩ | ⟨k, hk, htype⟩
    · rw [htype]
      exact ⟨_, rfl, rfl⟩
    · obtain ⟨n, hn, hrole⟩ := Step.run_as_type hkids hk role next
      refine ⟨n, ?_, hrole⟩
      rw [htype, Step.runAll, Step.runAll, hn]
      rfl

theorem Cst.lowerEach_giveTypes : (cs : List Cst) → GiveTypes cs (Cst.lowerEach cs)
  | [] => by simp [GiveTypes]
  | c :: cs => by
    intro index child hchild
    rw [Cst.lowerEach]
    cases index with
    | zero =>
      obtain rfl : c = child := by simpa using hchild
      exact ⟨c.lower, rfl, Cst.lower_givesType c⟩
    | succ index => exact Cst.lowerEach_giveTypes cs index child (by simpa using hchild)

end

/-! ### The parts of lowered nodes -/

/-- A node that has a name if it is an interface or an alias, and one type if it is an alias or
around a type. -/
structure Node.HasTypeParts (n : Node) : Prop where
  name : n.kind = .interfaceDeclaration ∨ n.kind = .typeAliasDeclaration →
    ∃ name text, n.get? .name = some name ∧ name.kind = .bindingIdentifier text
  type : n.kind = .typeAliasDeclaration ∨ n.kind.isAroundType = true →
    ∃ type, n.all .type = [type]

theorem Node.HasTypeParts.of_isFreelyMade {n : Node} (h : n.kind.isFreelyMade = true) :
    n.HasTypeParts := by
  constructor
  · rintro (hkind | hkind) <;> simp [hkind] at h
  · rintro (hkind | hkind)
    · simp [hkind] at h
    · unfold Kind.isFreelyMade at h
      split at h <;> simp_all

/-- Arranging parts moves none of the same role past each other. -/
theorem Node.all_arrange {role inner : Role} (hinner : inner ≠ .rest) (id : Nat) (kind : Kind)
    (span : Span) (parts : List Node) :
    (Node.mk role id kind span (Step.arrange parts)).all inner =
      parts.filter (·.role == inner) := by
  have hkept (n : Node) : (n.role == inner && n.role != .rest) = (n.role == inner) := by
    by_cases hn : n.role = inner <;> simp [hn, hinner]
  have hmoved (n : Node) : (n.role == inner && n.role == .rest) = false := by
    by_cases hn : n.role = inner <;> simp [hn, hinner]
  simp [all, Step.arrange, List.filter_filter, hkept, hmoved]

/-- A node that is made in some form has the parts it needs. -/
theorem Node.MadeIn.hasTypeParts {root : Cst} {n : Node} (h : n.MadeIn root) : n.HasTypeParts := by
  obtain @⟨c, -, role, id, kind, span, parts, hform, next⟩ := h
  have hkids := Cst.lowerEach_giveTypes c.children
  cases hform with
  | free hkind => exact .of_isFreelyMade hkind
  | name hname => exact ⟨by simp, by simp⟩
  | container => exact ⟨by simp, by simp⟩
  | declared =>
    refine ⟨fun _ => ⟨_, _, rfl, rfl⟩, ?_⟩
    simp
  | @aliased span name k hk =>
    obtain ⟨type, htype, hrole⟩ := Step.run_as_type hkids hk .type (next + 1)
    refine ⟨fun _ => ⟨_, _, rfl, rfl⟩, fun _ => ⟨type, ?_⟩⟩
    have hparts : (Step.runAll (Cst.lowerEach c.children) [Plan.binder .name name,
        k.as .type .type] next).1 = [⟨.name, next, .bindingIdentifier name.text, name.span, []⟩, type] := by
      rw [Step.runAll, Step.runAll, Step.runAll]
      exact congrArg (fun types => _ :: types ++ []) htype
    rw [Node.all_arrange (by decide), hparts]
    simp [hrole]
  | @around kind span k parent hkind hk =>
    obtain ⟨type, htype, hrole⟩ := Step.run_typeOr hkids hk .type parent next
    refine ⟨?_, fun _ => ⟨type, ?_⟩⟩
    · rintro (hname | hname) <;> cases hname <;> cases hkind
    · rw [Node.all_arrange (by decide), Step.runAll, Step.runAll, htype]
      simp [hrole]

/-- In a lowered file every interface and every alias has a name, and every alias, like every type
around another one, holds exactly one type. -/
theorem Program.ofCst_hasTypeParts (c : Cst) :
    ∀ n ∈ (Program.ofCst c).root.preorder, n.HasTypeParts := by
  intro n hn
  rcases Program.ofCst_made c n hn with rfl | hmade
  · exact ⟨nofun, nofun⟩
  · exact hmade.hasTypeParts

end TsxLint
