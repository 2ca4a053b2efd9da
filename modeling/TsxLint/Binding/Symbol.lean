import TsxLint.Binding.Scope

/-!
# Symbols

A binding identifier declares a symbol, or is written to by a destructuring assignment, or declares
nothing. Which of these holds is read off the nearest node around it that is no pattern. A scope
holds one symbol per name and namespace: values on one side, interfaces and type aliases on the
other. A second declaration of a name shares the symbol of the first.
-/

namespace TsxLint

/-- How a symbol is declared. -/
inductive DeclKind
  | param
  | var
  | letVar
  | constVar
  | function
  | classLike
  | importName
  | catchParam
  | type
  deriving DecidableEq, Repr

/-- Whether a declaration is of a value. -/
def DeclKind.isValue : DeclKind → Bool
  | type => false
  | _ => true

/-- A declared name: its scope, the identifier that names it, the node that declares it, and the
places of the references to it in the list of references. -/
structure Symbol where
  name : String
  kind : DeclKind
  scope : Nat
  binding : Nat
  declaration : Nat
  span : Span
  references : List Nat
  deriving DecidableEq, Repr

/-- What a binding identifier does. -/
inductive BinderUse
  | declares (kind : DeclKind) (scope declaration : Nat)
  | writes
  | none

/-- Whether a node only groups the names of a pattern. -/
def Kind.isPatternPart : Kind → Bool
  | objectPattern | arrayPattern _ | bindingProperty _ | assignmentPattern | restElement => true
  | _ => false

/-- The kind and the scope of a variable declared in `scope`. -/
def variableTarget (scopes : ScopeTree) (scope : Nat) : VariableKind → DeclKind × Nat
  | .var => (.var, scopes.varScope scope)
  | .letVar => (.letVar, scope)
  | .constVar => (.constVar, scope)

/-- What the binding identifier of a visit does. -/
def Visit.binderUse (scopes : ScopeTree) (v : Visit) : BinderUse :=
  match v.ancestors.filter fun n => !n.kind.isPatternPart with
  | [] => .none
  | owner :: outer =>
    match owner.kind with
    | .variableDeclarator =>
      let keyword :=
        match outer.head?.map Node.kind with
        | some (.variableDeclaration keyword) => keyword
        | _ => .letVar
      let target := variableTarget scopes v.scope keyword
      .declares target.1 target.2 owner.id
    | .param .. =>
      if outer.head?.any Node.isFunctionLike then .declares .param v.scope owner.id else .none
    | .function form .. =>
      let scope := if form = .declaration then (scopes.parent? v.scope).getD v.scope else v.scope
      .declares .function scope owner.id
    | .classLike isDeclaration =>
      let scope := if isDeclaration then (scopes.parent? v.scope).getD v.scope else v.scope
      .declares .classLike scope owner.id
    | .importSpecifier _ => .declares .importName 0 owner.id
    | .catchClause => .declares .catchParam v.scope owner.id
    | .interfaceDeclaration | .typeAliasDeclaration => .declares .type v.scope owner.id
    | .forInStatement _ _ (.declares keyword) =>
      let target := variableTarget scopes v.scope keyword
      .declares target.1 target.2 owner.id
    | .forInStatement _ _ (.assigns _) => .writes
    | .assignmentExpression .. => .writes
    | _ => .none

/-- The scopes and symbols of a file, and the symbol that each declaring identifier stands for, the
latest declaration first. -/
structure SymbolTable where
  scopes : ScopeTree
  symbols : List Symbol
  bindings : List (Nat × Nat)

namespace SymbolTable

/-- The table of a file in which nothing was seen yet. -/
def empty : SymbolTable := ⟨[], [], []⟩

/-- The symbol of a name in a scope, among the values or among the types. -/
def find? (table : SymbolTable) (isValue : Bool) (scope : Nat) (name : String) : Option Nat :=
  table.scopes[scope]?.bind (·.find? isValue name)

/-- Adds a scope that a node opens inside of `current`; the first scope has none around it. -/
def openScope (table : SymbolTable) (kind : ScopeKind) (current owner : Nat) : SymbolTable :=
  let parent := if table.scopes.isEmpty then none else some current
  { table with scopes := table.scopes ++ [⟨kind, parent, owner, [], []⟩] }

/-- Adds the declaration of a name. -/
def declare (table : SymbolTable) (symbol : Symbol) : SymbolTable :=
  match table.find? symbol.kind.isValue symbol.scope symbol.name with
  | some known => { table with bindings := (symbol.binding, known) :: table.bindings }
  | none =>
    let index := table.symbols.length
    ⟨table.scopes.modify symbol.scope (·.bind symbol.kind.isValue symbol.name index),
      table.symbols ++ [symbol], (symbol.binding, index) :: table.bindings⟩

/-- Adds what a visit declares. -/
def addVisit (table : SymbolTable) (v : Visit) : SymbolTable :=
  match v.node.kind with
  | .bindingIdentifier name =>
    match v.binderUse table.scopes with
    | .declares kind scope declaration =>
      table.declare ⟨name, kind, scope, v.node.id, declaration, v.node.span, []⟩
    | _ => table
  | _ => table

/-- Notes that the reference in some place is one to a symbol. -/
def addReference (table : SymbolTable) (symbol index : Nat) : SymbolTable :=
  let add (s : Symbol) : Symbol := { s with references := s.references ++ [index] }
  { table with symbols := table.symbols.modify symbol add }

/-- The symbol that a name stands for in a scope: that of the nearest scope outwards that declares
it. -/
def lookup (table : SymbolTable) (isValue : Bool) (scope : Nat) (name : String) : Option Nat :=
  (table.scopes.outward scope).findSome? fun s => table.find? isValue s name

end SymbolTable

end TsxLint
