import TsxLint.Binding.Reference

/-!
# Surveying a file

The names of a file are found in two passes. A walk enters and leaves every node; on entering a node
it records the visit, the declaration or the reference that the node makes, and then the scope that
the node opens. The walk keeps the nodes it is inside of and the open scopes on two stacks; a scope
is closed when the node on top of its stack is left. The second pass resolves the references, one
after the other, in the tables that the walk has left.

## Main definitions

* `Survey`: what is known so far, and the two stacks.
* `Survey.enter`, `Survey.leave`, `Survey.walk`: the first pass.
* `SymbolTable.climb`, `Survey.resolve`, `Survey.resolveAll`: the second pass.
-/

namespace TsxLint

/-- What is known about a file so far, with the nodes and the scopes that the walk is inside of, the
innermost first. An open scope stands beside the number of the node that opened it. -/
structure Survey where
  visits : List Visit
  table : SymbolTable
  references : List Reference
  referenceOf : List (Nat × Nat)
  nodeStack : List Node
  scopeStack : List (Nat × Nat)

/-- The symbol of a name in the nearest scope from `scope` outwards that declares it as a value. -/
def SymbolTable.climb (table : SymbolTable) (scope : Nat) (name : String) : Option Nat :=
  match table.scopes[scope]? with
  | none => none
  | some s =>
    match s.find? true name with
    | some symbol => some symbol
    | none =>
      match s.parent with
      | some parent => if parent < scope then climb table parent name else none
      | none => none
termination_by scope

namespace Survey

/-- The survey of a file that was not entered yet. -/
def empty : Survey := ⟨[], .empty, [], [], [], []⟩

/-- The innermost open scope. -/
def currentScope (s : Survey) : Nat := (s.scopeStack.head?.map Prod.snd).getD 0

/-- The visit that entering a node is. -/
def visitTo (s : Survey) (n : Node) : Visit := ⟨n, s.nodeStack, s.currentScope⟩

/-- Records a visit, with the declaration or the reference that it makes. -/
def record (s : Survey) (v : Visit) : Survey :=
  let s := { s with visits := s.visits ++ [v], table := s.table.addVisit v }
  match v.reference? s.table.scopes with
  | none => s
  | some reference =>
    { s with
      references := s.references ++ [reference]
      referenceOf := (reference.node, s.references.length) :: s.referenceOf }

/-- Opens the scope of a node, if it has one. -/
def openScope (s : Survey) (n : Node) : Survey :=
  match n.kind.scopeKind? with
  | none => s
  | some kind =>
    { s with
      table := s.table.openScope kind s.currentScope n.id
      scopeStack := (n.id, s.table.scopes.length) :: s.scopeStack }

/-- Enters a node. -/
def enter (s : Survey) (n : Node) : Survey :=
  let s := s.record (s.visitTo n)
  { s with nodeStack := n :: s.nodeStack }.openScope n

/-- Leaves a node, and the innermost scope if it is the one that the node opened. -/
def leave (s : Survey) (n : Node) : Survey :=
  let owned := s.scopeStack.head?.any (·.1 == n.id)
  { s with
    nodeStack := s.nodeStack.tail
    scopeStack := if owned then s.scopeStack.tail else s.scopeStack }

mutual

/-- Walks through a node and everything inside it. -/
def walk (s : Survey) : Node → Survey
  | ⟨role, id, kind, span, children⟩ =>
    let node : Node := ⟨role, id, kind, span, children⟩
    (walkAll (s.enter node) children).leave node

/-- Walks through a list of nodes. -/
def walkAll (s : Survey) : List Node → Survey
  | [] => s
  | n :: ns => walkAll (s.walk n) ns

end

/-- Resolves the reference in some place. -/
def resolve (s : Survey) (index : Nat) : Survey :=
  match s.references[index]? with
  | none => s
  | some reference =>
    match s.table.climb reference.scope reference.name with
    | none => s
    | some symbol =>
      { s with
        references := s.references.set index { reference with symbol := some symbol }
        table := s.table.addReference symbol index }

/-- Resolves all references. -/
def resolveAll (s : Survey) : Survey := (List.range s.references.length).foldl resolve s

/-- The survey of a whole file. -/
def ofRoot (root : Node) : Survey := (empty.walk root).resolveAll

end Survey

end TsxLint
