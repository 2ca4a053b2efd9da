import TsxLint.Binding.Survey

/-!
# The model of a file

Everything the rules consult about names: the visits to the nodes of a file, its scopes, its symbols
and its references. A number that belongs to no node has no parent, sits in the outermost scope and
owns none.

## Main definitions

* `Model.ofProgram`: the model of a typed tree.
* `Model.ancestors`, `Model.enclosingFunction?`, `Model.isWithin`: where a node stands.
* `Model.scopeOf`, `Model.lookup`: scopes and names.
* `Model.resolve?`, `Model.referencesTo`: from a use to its symbol and back.
-/

namespace TsxLint

/-- What is known about the nodes and names of a file. -/
structure Model where
  program : Program
  visits : List Visit
  table : SymbolTable
  references : List Reference
  referenceOf : List (Nat × Nat)

namespace Model

/-- The model of a typed tree. -/
def ofProgram (program : Program) : Model :=
  let s := Survey.ofRoot program.root
  ⟨program, s.visits, s.table, s.references, s.referenceOf⟩

/-- The scopes in the order in which they are opened. -/
def scopes (m : Model) : ScopeTree := m.table.scopes

/-- The nodes of the file in visiting order. -/
def nodes (m : Model) : List Node := m.visits.map Visit.node

/-- The symbols in order of declaration. -/
def symbols (m : Model) : List Symbol := m.table.symbols

/-- The visit to a node. -/
def visit? (m : Model) (id : Nat) : Option Visit := m.visits.find? (·.node.id == id)

/-- The node of a number. -/
def node? (m : Model) (id : Nat) : Option Node := (m.visit? id).map Visit.node

/-- The nodes around a node, the nearest first. -/
def ancestors (m : Model) (id : Nat) : List Node := ((m.visit? id).map Visit.ancestors).getD []

/-- The node that holds a node. -/
def parent? (m : Model) (id : Nat) : Option Node := (m.ancestors id).head?

/-- The nearest function or arrow function around a node. -/
def enclosingFunction? (m : Model) (id : Nat) : Option Node :=
  (m.ancestors id).find? Node.isFunctionLike

/-- Whether `inner` is `outer` or lies inside it. -/
def isWithin (m : Model) (inner outer : Nat) : Bool :=
  inner == outer || (m.ancestors inner).any (·.id == outer)

/-- The scope that a node sits in. -/
def scopeOf (m : Model) (id : Nat) : Nat := ((m.visit? id).map Visit.scope).getD 0

/-- The scope that a node opens. -/
def scopeOwnedBy? (m : Model) (id : Nat) : Option Nat := m.scopes.findIdx? (·.owner == id)

/-- The value that a name stands for in a scope. -/
def lookup (m : Model) (scope : Nat) (name : String) : Option Nat := m.table.lookup true scope name

/-- The interface or type alias that a name stands for in a scope. -/
def lookupType (m : Model) (scope : Nat) (name : String) : Option Nat :=
  m.table.lookup false scope name

/-- The symbol that a binding identifier declares. -/
def symbolForBinding? (m : Model) (id : Nat) : Option Nat := m.table.bindings.lookup id

/-- The reference made at a node. -/
def referenceAt? (m : Model) (id : Nat) : Option Reference :=
  (m.referenceOf.lookup id).bind fun index => m.references[index]?

/-- The symbol that the reference at a node stands for. -/
def resolve? (m : Model) (id : Nat) : Option Nat := (m.referenceAt? id).bind Reference.symbol

/-- The places, in the list of references, of those to a symbol. -/
def referenceIndices (m : Model) (symbol : Nat) : List Nat :=
  (m.symbols[symbol]?.map Symbol.references).getD []

/-- The references to a symbol. -/
def referencesTo (m : Model) (symbol : Nat) : List Reference :=
  (m.referenceIndices symbol).filterMap fun index => m.references[index]?

/-- The node that declares a symbol. -/
def declaration? (m : Model) (symbol : Nat) : Option Node :=
  m.symbols[symbol]?.bind fun s => m.node? s.declaration

/-- The values declared directly in a scope. -/
def bindingsOf (m : Model) (scope : Nat) : List Nat :=
  (m.scopes[scope]?.map fun s => s.values.map Prod.snd).getD []

end Model

end TsxLint
