import TsxLint.Tree.Node

/-!
# Visits and scopes

A walk enters every node of a file once. A `Visit` records the node, the nodes around it and the
scope it sits in. Programs, functions, static blocks, blocks, loops, catch clauses, classes and
switches open a scope; scopes are numbered in the order in which they are opened. A scope holds a
table of the names declared in it.

## Main definitions

* `Visit`: a node as a walk enters it.
* `Scope`, `Scope.find?`: a scope and the names declared in it.
* `ScopeTree.outward`: a scope and the scopes around it.
-/

namespace TsxLint

/-- What opened a scope. -/
inductive ScopeKind
  | module
  | function
  | block
  | catchClause
  | loop
  | classBody
  | switchBody
  deriving DecidableEq, Repr

/-- Whether `var` declarations are hoisted to a scope. -/
def ScopeKind.isVarScope : ScopeKind → Bool
  | module | function => true
  | _ => false

/-- The kind of scope that a node opens. -/
def Kind.scopeKind? : Kind → Option ScopeKind
  | program => some .module
  | function .. | arrowFunction _ | staticBlock => some .function
  | blockStatement => some .block
  | forStatement | forInStatement .. => some .loop
  | catchClause => some .catchClause
  | classLike _ => some .classBody
  | switchStatement => some .switchBody
  | _ => none

/-- A node as a walk enters it: the nodes around it, the nearest first, and the scope it sits in.
A node that opens a scope sits in the scope around that one. -/
structure Visit where
  node : Node
  ancestors : List Node
  scope : Nat

/-- A scope: its kind, the scope around it, the node that opened it, and the symbols declared
directly in it by name. Interfaces and type aliases have a table of their own. -/
structure Scope where
  kind : ScopeKind
  parent : Option Nat
  owner : Nat
  values : List (String × Nat)
  types : List (String × Nat)
  deriving DecidableEq, Repr

namespace Scope

/-- The symbol that a name is declared as in the scope, among the values or among the types. -/
def find? (s : Scope) (isValue : Bool) (name : String) : Option Nat :=
  if isValue then s.values.lookup name else s.types.lookup name

/-- Adds a symbol to one of the two tables. -/
def bind (s : Scope) (isValue : Bool) (name : String) (symbol : Nat) : Scope :=
  if isValue then { s with values := s.values ++ [(name, symbol)] }
  else { s with types := s.types ++ [(name, symbol)] }

end Scope

/-- The scopes of a file, in the order in which they are opened. -/
abbrev ScopeTree := List Scope

namespace ScopeTree

/-- The scope around a scope. -/
def parent? (scopes : ScopeTree) (scope : Nat) : Option Nat := scopes[scope]?.bind Scope.parent

/-- A scope and the scopes around it, from the inside out. -/
def outward (scopes : ScopeTree) (scope : Nat) : List Nat :=
  match scopes.parent? scope with
  | some parent => if parent < scope then scope :: outward scopes parent else [scope]
  | none => [scope]
termination_by scope

/-- Whether `inner` is `outer` or lies inside it. -/
def isWithin (scopes : ScopeTree) (inner outer : Nat) : Bool :=
  (scopes.outward inner).contains outer

/-- The nearest scope, from `scope` outwards, that `var` declarations are hoisted to. -/
def varScope (scopes : ScopeTree) (scope : Nat) : Nat :=
  ((scopes.outward scope).find? fun s => (scopes[s]?).any (·.kind.isVarScope)).getD 0

end ScopeTree

end TsxLint
