import TsxLint.Binding.Model

/-!
# Where a binding comes from

Relative to a function, a symbol is one of its parameters, one of its locals, or declared elsewhere.
The symbols of a function are those of its own scope and of the scopes inside it that are not inside
a nested function.

## Main definitions

* `FunctionState`, `Model.functionState`: the symbols of a function.
* `FunctionState.classify`, `Model.provenance`: where a symbol comes from.
-/

namespace TsxLint

/-- Where a symbol used in a function comes from. -/
inductive Provenance
  | parameter
  | localName
  | external
  deriving DecidableEq, Repr

/-- Whether a scope is the scope of a function or lies inside it, outside of nested functions: the
way outwards meets the scope of the function before that of any other. -/
def ScopeTree.belongsTo (scopes : ScopeTree) (functionScope scope : Nat) : Bool :=
  if scope = functionScope then true
  else
    match scopes[scope]? with
    | none => false
    | some s =>
      if s.kind = .function then false
      else
        match s.parent with
        | some parent => if parent < scope then belongsTo scopes functionScope parent else false
        | none => false
termination_by scope

/-- The symbols that a function declares, those of nested functions left out, and the parameters
among them. -/
structure FunctionState where
  locals : List Nat
  params : List Nat
  deriving DecidableEq, Repr

namespace FunctionState

/-- The state of a node that is no function. -/
def empty : FunctionState := ⟨[], []⟩

/-- Where a symbol comes from. -/
def classify (state : FunctionState) (symbol : Nat) : Provenance :=
  if state.params.contains symbol then .parameter
  else if state.locals.contains symbol then .localName
  else .external

end FunctionState

namespace Model

/-- The values declared in the scope of a function and in the scopes that belong to it. -/
def functionState (m : Model) (function : Nat) : FunctionState :=
  match m.scopeOwnedBy? function with
  | none => .empty
  | some functionScope =>
    let owned := (List.range m.scopes.length).filter (m.scopes.belongsTo functionScope)
    let locals := owned.flatMap m.bindingsOf
    ⟨locals, locals.filter fun symbol => (m.symbols[symbol]?).any (·.kind == .param)⟩

/-- Where a symbol comes from, seen from the function that a node is. -/
def provenance (m : Model) (function symbol : Nat) : Provenance :=
  (m.functionState function).classify symbol

end Model

end TsxLint
