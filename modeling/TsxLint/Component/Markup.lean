import TsxLint.Component.Function
import TsxLint.Component.Graph
import TsxLint.Naming.Case

/-!
# Components and their markup

Components are the named functions whose name starts with a capital. A component hands its markup on
to the components that it renders self-closing, and a prop to the attributes that it only passes it
on to.

## Main definitions

* `Node.yieldsJsx`, `Node.containsJsx`: whether an expression gives markup.
* `Model.components`, `NamedFunction.handoffs`: components and the edges between them.
* `NamedFunction.propBindings`, `Model.forwardedProps`: the props of a component, and those that it
  only forwards.
-/

namespace TsxLint

/-- The roles of the parts that an expression may give as its value, as far as markup goes. -/
def Kind.valueRoles : Kind → List Role
  | .parenthesizedExpression => [.expression]
  | .conditionalExpression => [.consequent, .alternate]
  | .logicalExpression _ => [.left, .right]
  | _ => []

mutual

/-- Whether evaluating an expression may directly give markup. -/
def Node.yieldsJsx : Node → Bool
  | ⟨_, _, kind, _, children⟩ =>
    match kind with
    | .jsxElement _ | .jsxFragment => true
    | kind => yieldsJsxAt kind.valueRoles children

/-- Whether a part under some roles gives markup. -/
def Node.yieldsJsxAt (roles : List Role) : List Node → Bool
  | [] => false
  | n :: ns => (roles.contains n.role && n.yieldsJsx) || yieldsJsxAt roles ns

end

/-- Whether there is markup anywhere in an expression, nested functions included. -/
def Node.containsJsx (n : Node) : Bool := n.preorder.any Node.isJsx

/-- The components of a file, in source order. -/
def Model.components (m : Model) : List NamedFunction :=
  m.namedFunctions.filter fun f => Naming.startsUppercase f.name

/-- Where a finding about a component is reported: its declaration, or the name it is bound to. -/
def NamedFunction.reportSpan (f : NamedFunction) : Span :=
  match f.function.kind with
  | .function .declaration _ _ => f.function.span
  | _ => f.nameNode.span

/-- The component that an element name refers to: `Card` for `Card` and for `Card.Header`. -/
def Node.customName? (name : Node) : Option String :=
  let candidate :=
    match name.kind with
    | .jsxIdentifier name => some name
    | .jsxMemberName [root, _] => some root
    | _ => none
  candidate.filter Naming.startsUppercase

/-- The component that the name of an opening element refers to. -/
def Node.customElement? (opening : Node) : Option String := (opening.get? .name).bind Node.customName?

/-- The roles of the parts in which a search for handoffs goes on. -/
def Kind.markupRoles : Kind → List Role
  | .jsxElement _ | .jsxFragment => [.child]
  | .jsxExpressionContainer => [.expression]
  | kind => kind.valueRoles

mutual

/-- The components rendered self-closing in markup, each time they occur. -/
def Node.selfClosing : Node → List String
  | ⟨_, _, kind, _, children⟩ =>
    let own :=
      match kind with
      | .jsxElement true =>
        ((children.find? (·.role == .opening)).bind Node.customElement?).toList
      | _ => []
    own ++ selfClosingAt kind.markupRoles children

/-- The components rendered self-closing in the parts under some roles. -/
def Node.selfClosingAt (roles : List Role) : List Node → List String
  | [] => []
  | n :: ns => (if roles.contains n.role then n.selfClosing else []) ++ selfClosingAt roles ns

end

/-- The components that the markup of a body is handed on to, in order of first occurrence. -/
def handoffs (body : Option Body) : List String :=
  ComponentGraph.dedup ((body.map Body.returned).getD [] |>.flatMap Node.selfClosing)

/-! ### Props -/

/-- A name that a component takes from its first parameter. A rest binding has its own name for a
prop. -/
structure PropBinding where
  prop : String
  isRest : Bool
  binder : Node

namespace PropBinding

/-- The local name. -/
def localName (b : PropBinding) : String := b.binder.label

/-- How the prop is called in a message. -/
def label (b : PropBinding) : String := if b.isRest then "..." ++ b.localName else b.prop

end PropBinding

/-- The pattern of a parameter, its default left out. -/
def Node.barePattern? (param : Node) : Option Node :=
  (param.get? .pattern).bind fun pattern =>
    match pattern.kind with
    | .assignmentPattern => pattern.get? .left
    | _ => some pattern

/-- The identifier that a value pattern binds, with or without a default. -/
def Node.simpleBinder? (pattern : Node) : Option Node :=
  match pattern.kind with
  | .bindingIdentifier _ => some pattern
  | .assignmentPattern =>
    (pattern.get? .left).filter fun left =>
      match left.kind with
      | .bindingIdentifier _ => true
      | _ => false
  | _ => none

/-- The prop that a property of an object pattern names, if its key is an identifier or a text. -/
def Node.propKey? (property : Node) : Option String :=
  (property.get? .key).bind fun key =>
    match key.kind with
    | .identifierName name => some name
    | .stringLiteral value => some value
    | _ => none

/-- The names that the object pattern of the first parameter binds; nested patterns are left out. -/
def propBindings (params : List Node) (includeRest : Bool) : List PropBinding :=
  match params.head?.bind Node.barePattern? with
  | none => []
  | some pattern =>
    match pattern.kind with
    | .objectPattern =>
      let named := (pattern.all .property).filterMap fun property =>
        ((property.get? .value).bind Node.simpleBinder?).map fun binder =>
          ⟨property.propKey?.getD binder.label, false, binder⟩
      let rest := ((pattern.get? .rest).bind fun rest => rest.get? .argument).bind fun argument =>
        match argument.kind with
        | .bindingIdentifier name => some ⟨name, true, argument⟩
        | _ => none
      named ++ if includeRest then rest.toList else []
    | _ => []

/-- What a use of a prop does with it: keeps it, or hands it on unchanged. -/
inductive PropUse
  | owned
  | forwarded (target : String) (component : Option String)

/-- What the use of a prop at a node does with it. -/
def Model.propUse (m : Model) (id : Nat) : PropUse :=
  let isParenthesized := fun (n : Node) =>
    match n.kind with
    | .parenthesizedExpression => true
    | _ => false
  let receiver := fun (outer : List Node) =>
    outer.head?.bind fun opening =>
      match opening.kind with
      | .jsxOpeningElement => opening.customElement?
      | _ => none
  match (m.ancestors id).dropWhile isParenthesized with
  | [] => .owned
  | parent :: outer =>
    match parent.kind with
    | .jsxExpressionContainer =>
      match outer with
      | [] => .owned
      | holder :: beyond =>
        match holder.kind, (holder.get? .name).map Node.kind with
        | .jsxAttribute, some (.jsxIdentifier name) => .forwarded name (receiver beyond)
        | _, _ => .owned
    | .jsxSpreadAttribute => .forwarded "props spread" (receiver outer)
    | _ => .owned

/-- A prop that is only handed on: the attributes it reaches, sorted, and the components that
receive it, in order of first use. -/
structure ForwardedProp where
  binding : PropBinding
  targets : List String
  components : List String

/-- The targets as a message lists them. -/
def ForwardedProp.targetsLabel (f : ForwardedProp) : String :=
  if f.targets.isEmpty then "child prop" else Text.joinWith ", " f.targets

/-- The texts in order, each once. -/
def sortedDistinct (texts : List String) : List String :=
  (ComponentGraph.dedup texts).mergeSort fun a b => !(b < a)

/-- What becomes of a prop when all its uses hand it on; `none` when one keeps it. -/
def forwardedUses (uses : List PropUse) : Option (List (String × Option String)) :=
  uses.mapM fun
    | .owned => none
    | .forwarded target component => some (target, component)

/-- The props of a component that are used, and only to be handed on. `children` never counts. -/
def Model.forwardedProps (m : Model) (f : NamedFunction) (includeRest : Bool) :
    List ForwardedProp :=
  (propBindings f.params includeRest).filterMap fun binding =>
    if !binding.isRest && binding.prop == "children" then none
    else
      (m.symbolForBinding? binding.binder.id).bind fun symbol =>
        let references := m.referencesTo symbol
        if references.isEmpty then none
        else
          (forwardedUses (references.map fun r => m.propUse r.node)).map fun uses =>
            ⟨binding, sortedDistinct (uses.map Prod.fst),
              ComponentGraph.dedup (uses.filterMap Prod.snd)⟩

end TsxLint
