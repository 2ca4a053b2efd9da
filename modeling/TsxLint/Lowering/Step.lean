import TsxLint.Tree.Concrete
import TsxLint.Tree.Node

/-!
# Building plans

Turning a concrete tree into a typed one has two halves. For each node and each `Goal` a *plan*
says which typed nodes to make and which children to lower for which goal; a plan does not recurse
and numbers nothing. Carrying a plan out (`Step.run`) hands out node numbers, a node before its
parts, and is the same for all plans. So the numbering is one fact about `Step.run`, whatever the
plans say.
-/

namespace TsxLint

/-- What a concrete node is to be lowered as. -/
inductive Goal
  | statement
  | expression
  | pattern
  | target
  | type
  | each (goal : Goal)
  | condition
  | elseBranch
  | loopInit
  | loopTest
  | block
  | functionBody
  | function (form : FunctionForm)
  | classLike (isDeclaration : Bool)
  | param
  | computedKey
  | substitution
  | sequencePart
  | unionPart
  | intersectionPart
  | tupleElement
  | firstType
  | signature
  | objectMember
  | patternMember
  | rest
  | switchBody
  | switchCase
  | catchClause
  | finallyClause
  | classHeritage
  | extendsValue
  | classMember
  | declarator
  | importClause
  | wholeImport
  | namedImports
  | importSpecifier
  | exportClause
  | exportSpecifier
  | jsx
  | jsxOpening
  | jsxAttribute
  | jsxSpread
  | jsxContainer
  | spreadArgument

/-- One step of a plan: make a node with parts, lower a child, or do steps whose nodes are not
kept. -/
inductive Step
  | node (role : Role) (kind : Kind) (span : Span) (parts : List Step)
  | child (role : Role) (index : Nat) (goal : Goal)
  | lost (steps : List Step)

/-- What lowering a concrete node does: for a goal, a role and the next free number it gives the
typed nodes and the number that is free afterwards. -/
abbrev Lowering := Goal → Role → Nat → List Node × Nat

namespace Step

/-- Parts in visiting order: a rest element is visited after the others. -/
def arrange (parts : List Node) : List Node :=
  parts.filter (·.role != .rest) ++ parts.filter (·.role == .rest)

mutual

/-- Carries out a step, given what lowering each child does. -/
def run (kids : List Lowering) : Step → Nat → List Node × Nat
  | node role kind span parts, next =>
    let made := runAll kids parts (next + 1)
    ([⟨role, next, kind, span, arrange made.1⟩], made.2)
  | child role index goal, next =>
    match kids[index]? with
    | some lower => lower goal role next
    | none => ([], next)
  | lost steps, next => ([], (runAll kids steps next).2)

/-- Carries out steps one after the other. -/
def runAll (kids : List Lowering) : List Step → Nat → List Node × Nat
  | [], next => ([], next)
  | step :: steps, next =>
    let first := run kids step next
    let others := runAll kids steps first.2
    (first.1 ++ others.1, others.2)

end

/-- A node without parts at the place of a concrete node. -/
def leaf (role : Role) (kind : Kind) (c : Cst) : Step := .node role kind c.span []

/-- A node for a shape that the typed tree has no place for. -/
def unknown (role : Role) (c : Cst) : Step := leaf role (.unknown c.kind) c

/-- A type that is not looked into. -/
def unreadType (role : Role) (c : Cst) : Step := leaf role (.unreadType c.kind) c

/-- A number handed out to nothing. -/
def gap (c : Cst) : Step := .lost [unknown .root c]

end Step

namespace Kid

/-- The step that lowers a child. -/
def as (k : Kid) (role : Role) (goal : Goal) : Step := .child role k.index goal

end Kid

namespace Step

/-- Lowers a child if it is there, else takes the other step. -/
def orElse (k : Option Kid) (role : Role) (goal : Goal) (other : Step) : Step :=
  match k with
  | some k => k.as role goal
  | none => other

/-- Lowers an expression that has to be there, else marks the parent as unknown. -/
def expression (role : Role) (k : Option Kid) (parent : Cst) : Step :=
  orElse k role .expression (unknown role parent)

/-- Lowers a type that has to be there, else keeps the parent unread. -/
def typeOr (role : Role) (k : Option Kid) (parent : Cst) : Step :=
  orElse k role .type (unreadType role parent)

/-- Lowers a child if it is there. -/
def maybe (k : Option Kid) (role : Role) (goal : Goal) : List Step :=
  (k.map fun k => k.as role goal).toList

/-- Lowers every child of a list for one goal. -/
def many (ks : List Kid) (role : Role) (goal : Goal) : List Step := ks.map fun k => k.as role goal

end Step

end TsxLint
