import TsxLint.Naming.Glob
import TsxLint.Rule.PropName
import TsxLint.Type.Contract

/-!
# Types of props

Rules about what props are: rendered elements, components, objects and arrays are refused where a
contract declares them, and objects also where markup passes them.
-/

namespace TsxLint

open Template (hole)

/-- The properties of a contract that have a type, with it. -/
def Contract.typedProperties (c : Contract) : List (Node × Node) :=
  c.properties.filterMap fun property => (property.get? .type).map fun type => (property, type)

/-- The key of a member that is an identifier. -/
def Node.identifierKey? (n : Node) : Option Node :=
  (n.get? .key).bind fun key =>
    match key.kind with
    | .identifierName _ => some key
    | _ => none

/-! ### Elements and components -/

namespace ElementProps

/-- The prop that an element kind is reserved for. -/
def reserved : ElementKind → String
  | .node => "children"
  | .element => "render"

/-- The message about an element kind. -/
def message : ElementKind → String
  | .node => "noElementPropsReactNode"
  | .element => "noElementPropsReactElement"

/-- The first element kind that a prop is of without being reserved for it. -/
def offending? (shapes : Shapes) (prop : String) (type : Node) : Option ElementKind :=
  [ElementKind.node, .element].find? fun kind =>
    prop != reserved kind && shapes.containsElement kind type

/-- The props that are rendered elements. -/
def check : Check := fun s =>
  (s.model.contracts.flatMap Contract.typedProperties).filterMap fun (property, type) => do
    let key ← property.identifierKey?
    let kind ← offending? s.shapes key.label type
    pure ⟨key.span, message kind, [("prop", key.label)]⟩

end ElementProps

/-- Refuses props that are rendered elements. -/
def noElementProps : Rule where
  name := "no-element-props"
  category := .react
  description := "Disallow ReactNode props other than children and ReactElement props other than render."
  messages :=
    [("noElementPropsReactNode", "Prop '" ++ hole "prop" ++
      "' is typed as ReactNode. Only 'children' may be a ReactNode; use compound composition and compose parts via 'children' instead."),
      ("noElementPropsReactElement", "Prop '" ++ hole "prop" ++
        "' is typed as ReactElement. Only 'render' may be a ReactElement; use compound composition and compose parts via 'children' instead.")]
  configure := withoutOptions ElementProps.check

/-- The props that are components. -/
def ComponentTypeProps.check : Check := fun s =>
  (s.model.contracts.flatMap Contract.typedProperties).filterMap fun (property, type) => do
    let key ← property.identifierKey?
    if s.shapes.isComponentConstructor type then
      some ⟨key.span, "noComponentTypeProps", [("prop", key.label)]⟩
    else none

/-- Refuses props that are components. -/
def noComponentTypeProps : Rule where
  name := "no-componenttype-props"
  category := .react
  description := "Disallow props typed as ComponentType, FC or FunctionComponent."
  messages :=
    [("noComponentTypeProps", "Prop '" ++ hole "prop" ++
      "' uses ComponentType/FC/FunctionComponent. Prefer asChild or a render prop for polymorphism.")]
  configure := withoutOptions ComponentTypeProps.check

/-! ### Objects -/

namespace ObjectProps

/-- Whether a prop may be an object. -/
def isExempt (ignore : Naming.GlobList) (prop : String) : Bool :=
  prop == "style" || ignore.matches prop

/-- The finding about a property of a props contract. -/
def declared? (ignore : Naming.GlobList) (shapes : Shapes) (c : Contract) (property type : Node) :
    Option Diagnostic := do
  let prop ← property.keyName?
  if !isExempt ignore prop && shapes.isObject type then
    some ⟨property.span, "noObjectProps", [("prop", prop), ("propsType", c.name)]⟩
  else none

/-- Whether an expression is written as an object, or its type is known to be one. -/
def isObjectValue (shapes : Shapes) (expression : Node) : Bool :=
  (match expression.unwrapped.kind with
    | .objectExpression => true
    | _ => false) || (shapes.resolved? expression).any (·.isPlainObject)

/-- The finding about an attribute. -/
def passed? (ignore : Naming.GlobList) (shapes : Shapes) (a : Node) : Option Diagnostic := do
  let name ← a.plainName?
  let value ← a.get? .value
  match value.kind with
  | .jsxExpressionContainer =>
    let expression ← value.get? .expression
    if !isExempt ignore name.label && isObjectValue shapes expression then
      some ⟨value.span, "noObjectPropsValue", [("prop", name.label)]⟩
    else none
  | _ => none

/-- The object props that contracts declare, then those that markup passes. -/
def check (ignore : Naming.GlobList) : Check := fun s =>
  ((s.model.propsContracts s.aliases).flatMap fun c =>
    c.typedProperties.filterMap fun (property, type) =>
      declared? ignore s.shapes c property type) ++
    s.attributes.filterMap (passed? ignore s.shapes)

/-- Reads the globs of props that may be objects. -/
def ignore? (data : Data) : Option Naming.GlobList := do
  let table ← OptionTable.ofData? ["ignore"] data
  let globs ← table.read? "ignore" Data.texts? []
  pure (.ofGlobs globs)

end ObjectProps

/-- Refuses props that are objects. -/
def noObjectProps : Rule where
  name := "no-object-props"
  category := .react
  description := "Disallow object-typed props in prop contracts and object values passed to JSX props."
  messages :=
    [("noObjectProps", "Object type for '" ++ hole "prop" ++ "' in '" ++ hole "propsType" ++
      "'. Prefer primitive props and compound composition. If object-shaped data must be shared across parts, use private context inside the compound root."),
      ("noObjectPropsValue", "Object value passed to prop '" ++ hole "prop" ++
        "'. Avoid object props; prefer primitive props and compound composition. If object-shaped data must be shared across parts, use private context inside the compound root instead of passing object props.")]
  configure := fun data => (ObjectProps.ignore? data).map ObjectProps.check

/-! ### Arrays -/

/-- The props that contracts declare as arrays. -/
def ArrayProps.check : Check := fun s =>
  (s.model.propsContracts s.aliases).flatMap fun c =>
    (c.typedProperties.filter fun (_, type) => s.shapes.isArray type).map fun (property, _) =>
      ⟨property.span, "noArrayProps",
        [("prop", property.keyName?.getD "(unknown)"), ("propsType", c.name)]⟩

/-- Refuses props that are arrays. -/
def noArrayProps : Rule where
  name := "no-array-props"
  category := .react
  description := "Disallow array-typed members in TypeScript type definitions whose name ends with Props."
  messages :=
    [("noArrayProps", "Array type for '" ++ hole "prop" ++ "' in '" ++ hole "propsType" ++
      "'. Prefer primitive props and compound composition.")]
  configure := withoutOptions ArrayProps.check

end TsxLint
