import TsxLint.Binding.Provenance
import TsxLint.Rule.Basic
import TsxLint.Rule.Options

/-!
# Writing to bindings

Three rules about writes. A function writes to its own locals only and calls methods on foreign
bindings only if they are readonly; parameters are not written to; a variable that is never written
again is a constant.

## Main definitions

* `Model.foreignSymbol?`: the symbol of a name that a function does not own.
* `Node.chainRoot?`, `Node.patternTargets`: where the target of a write starts.
* `noExternalBindingMutation`, `noParamReassign`, `preferConst`: the rules.
-/

namespace TsxLint

/-- The symbol that an identifier stands for, if the function around a node does not own it:
a parameter, or a name from outside. Code outside of functions owns everything. -/
def Model.foreignSymbol? (m : Model) (position : Nat) (identifier : Node) : Option Nat := do
  let function ← m.enclosingFunction? position
  let symbol ← m.resolve? identifier.id
  if m.provenance function.id symbol = .localName then none else some symbol

namespace ExternalMutation

/-- The identifier that an assignment or update writes to. -/
def written? (n : Node) : Option Node :=
  match n.kind with
  | .assignmentExpression _ .identifier => (n.get? .target).bind Node.asIdentifier?
  | .updateExpression .. => (n.get? .argument).bind fun argument => argument.unwrapped.asIdentifier?
  | _ => none

/-- The identifier on which a call calls a method. -/
def receiver? (n : Node) : Option Node :=
  match n.kind with
  | .callExpression _ =>
    (n.get? .callee).bind fun callee =>
      match callee.unwrapped.kind with
      | .memberExpression _ => (callee.unwrapped.get? .object).bind Node.asIdentifier?
      | _ => none
  | _ => none

/-- The type written at the declaration of a parameter or variable. -/
def declaredType? (m : Model) (symbol : Nat) : Option Node :=
  (m.declaration? symbol).bind fun declaration =>
    match declaration.kind with
    | .param .. | .variableDeclarator => declaration.get? .type
    | _ => none

/-- Whether a receiver is declared readonly, or its type is known to be. -/
def isReadonly (s : Subject) (receiver : Node) (symbol : Nat) : Bool :=
  (declaredType? s.model symbol).any s.shapes.isReadonly ||
    (s.shapes.resolved? receiver).any
      (·.everyConstituent fun member => member.isReadonly || member.isPrimitive)

/-- What a node does to a binding that its function does not own. -/
def finding? (s : Subject) (n : Node) : Option Diagnostic :=
  match written? n with
  | some identifier =>
    (s.model.foreignSymbol? n.id identifier).map fun _ =>
      ⟨identifier.span, "noExternalBindingMutation", [("name", identifier.label)]⟩
  | none => do
    let receiver ← receiver? n
    let symbol ← s.model.foreignSymbol? n.id receiver
    if isReadonly s receiver symbol then none
    else
      some ⟨receiver.span, "noExternalBindingCallRequiresReadonly", [("name", receiver.label)]⟩

/-- The writes to, and the method calls on, bindings that a function does not own. -/
def check : Check := fun s => s.nodes.filterMap (finding? s)

end ExternalMutation

open Template (hole)

/-- Keeps functions from changing what they do not own. -/
def noExternalBindingMutation : Rule where
  name := "no-external-binding-mutation"
  category := .core
  description := "Disallow mutating parameters and bindings declared outside the current function"
  messages :=
    [("noExternalBindingMutation",
      "Only mutate local bindings. '" ++ hole "name" ++ "' is external or a parameter."),
      ("noExternalBindingCallRequiresReadonly",
        "Method calls on external or parameter binding '" ++ hole "name" ++
          "' require a readonly type annotation.")]
  configure := withoutOptions ExternalMutation.check

/-! ### Parameters -/

mutual

/-- The identifier that a chain of member accesses starts from, through wrappers. -/
def Node.chainRoot? : Node → Option Node
  | ⟨role, id, kind, span, children⟩ =>
    match kind with
    | .identifierReference name => some ⟨role, id, .identifierReference name, span, children⟩
    | .memberExpression _ => chainRootIn? .object children
    | kind => if kind.isWrapper then chainRootIn? .expression children else none

/-- The root of the chain in the first part under a role. -/
def Node.chainRootIn? (role : Role) : List Node → Option Node
  | [] => none
  | n :: ns => if n.role == role then n.chainRoot? else chainRootIn? role ns

end

/-- The root of a chain of at least one member access. -/
def Node.memberRoot? (n : Node) : Option Node :=
  match n.unwrapped.kind with
  | .memberExpression _ => n.chainRoot?
  | _ => none

mutual

/-- The expressions that a pattern assigns to, in source order, a rest element last. -/
def Node.patternTargets : Node → List Node
  | ⟨role, id, kind, span, children⟩ =>
    match kind with
    | .bindingIdentifier _ => []
    | .objectPattern => patternTargetsAt [.property, .rest] children
    | .bindingProperty _ => patternTargetsAt [.value] children
    | .arrayPattern _ => patternTargetsAt [.element, .rest] children
    | .assignmentPattern => patternTargetsAt [.left] children
    | .restElement => patternTargetsAt [.argument] children
    | kind => [⟨role, id, kind, span, children⟩]

/-- The expressions that the children under some roles assign to. -/
def Node.patternTargetsAt (roles : List Role) : List Node → List Node
  | [] => []
  | n :: ns => (if roles.contains n.role then n.patternTargets else []) ++ patternTargetsAt roles ns

end

namespace ParamReassign

/-- The identifiers that the chains of a target start from. -/
def targetRoots (form : TargetForm) (target : Option Node) : List Node :=
  match form, target with
  | .member, some target => target.memberRoot?.toList
  | .pattern, some target => target.patternTargets.filterMap Node.memberRoot?
  | _, _ => []

/-- The identifiers through whose members a node writes or deletes. -/
def writtenRoots (n : Node) : List Node :=
  match n.kind with
  | .assignmentExpression _ form => targetRoots form (n.get? .target)
  | .updateExpression .. => ((n.get? .argument).bind Node.memberRoot?).toList
  | .unaryExpression "delete" => ((n.get? .argument).bind Node.memberRoot?).toList
  | .forInStatement _ _ (.assigns form) => targetRoots form (n.get? .left)
  | _ => []

/-- Whether an identifier stands for a parameter. -/
def isParameter (m : Model) (identifier : Node) : Bool :=
  (m.resolve? identifier.id).any fun symbol => (m.symbols[symbol]?).any (·.kind == .param)

/-- The writes to parameters. -/
def reassignments (m : Model) : List Diagnostic :=
  (m.symbols.zipIdx.filter (·.1.kind == .param)).flatMap fun (symbol, index) =>
    ((m.referencesTo index).filter (·.access.isWrite)).filterMap fun reference =>
      (m.node? reference.node).map fun n =>
        ⟨n.span, "assignmentToFunctionParam", [("name", symbol.name)]⟩

/-- The writes to members of parameters. -/
def propertyWrites (m : Model) : List Diagnostic :=
  ((m.nodes.flatMap writtenRoots).filter (isParameter m)).map fun root =>
    ⟨root.span, "assignmentToFunctionParamProp", [("name", root.label)]⟩

/-- The writes to parameters and, if `props`, to their members. -/
def check (props : Bool) : Check := fun s =>
  byStart (reassignments s.model ++ if props then propertyWrites s.model else [])

/-- Reads whether members count. -/
def props? (data : Data) : Option Bool := do
  let table ← OptionTable.ofData? ["props"] data
  table.read? "props" Data.bool? false

end ParamReassign

/-- Keeps functions from writing to their parameters. -/
def noParamReassign : Rule where
  name := "no-param-reassign"
  category := .core
  description := "Disallow reassigning function parameters"
  messages :=
    [("assignmentToFunctionParam", "Assignment to function parameter '" ++ hole "name" ++ "'."),
      ("assignmentToFunctionParamProp",
        "Assignment to property of function parameter '" ++ hole "name" ++ "'.")]
  configure := fun data => (ParamReassign.props? data).map ParamReassign.check

/-! ### Constants -/

namespace PreferConst

/-- Whether the symbol of a binding identifier has no writes. -/
def neverWritten (m : Model) (binder : Node) : Bool :=
  (m.symbolForBinding? binder.id).any fun symbol =>
    !(m.referencesTo symbol).any (·.access.isWrite)

/-- The patterns that a node declares with `let` and a value. -/
def initializedPatterns (n : Node) : List Node :=
  match n.kind with
  | .variableDeclaration .letVar =>
    ((n.all .declarator).filter fun d => (d.get? .initial).isSome).filterMap (·.get? .binding)
  | .forInStatement _ _ (.declares .letVar) => (n.get? .left).toList
  | _ => []

/-- The names of a pattern, if none of them is written again. -/
def constants (m : Model) (pattern : Node) : List Node :=
  if pattern.binders.all (neverWritten m) then pattern.binders else []

/-- The variables that could be constants. -/
def check : Check := fun s =>
  ((s.nodes.flatMap initializedPatterns).flatMap (constants s.model)).map fun binder =>
    ⟨binder.span, "useConst", [("name", binder.label)]⟩

end PreferConst

/-- Asks for constants where a variable is never written again. -/
def preferConst : Rule where
  name := "prefer-const"
  category := .core
  description :=
    "Require const declarations for variables that are never reassigned after declared"
  messages :=
    [("useConst", "'" ++ hole "name" ++ "' is never reassigned. Use 'const' instead.")]
  configure := withoutOptions PreferConst.check

end TsxLint
