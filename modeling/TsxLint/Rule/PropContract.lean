import TsxLint.Component.Markup
import TsxLint.Naming.Vocabulary
import TsxLint.Rule.PropType

/-!
# Contracts of props

Rules about the contract of a component: an optional prop has a default, a boolean prop has a
handler that controls it, and a contract has a bounded number of props.
-/

namespace TsxLint

open Template (hole)

/-! ### Optional props -/

namespace OptionalProps

/-- The members written on the type of a parameter: those of an object type, or of the interface or
alias that it refers to. -/
def authoredMembers (aliases : AliasTable) (type : Node) : List Node :=
  match type.kind with
  | .typeLiteral => type.all .member
  | .typeReference => (aliases.members? type.lastSegment).getD []
  | _ => []

/-- The name of an optional property signature. -/
def optionalName? (member : Node) : Option String :=
  match member.kind with
  | .propertySignature true _ => member.keyName?
  | _ => none

/-- The optional props of a type that are not ignored, each once. -/
def optionalProps (ignore : Naming.GlobList) (aliases : AliasTable) (type : Node) : List String :=
  (((authoredMembers aliases type).filterMap optionalName?).filter
    fun name => !ignore.matches name).eraseDups

/-- The keys that a parameter takes with a default. -/
def defaultedKeys (param : Node) : List String :=
  match param.barePattern? with
  | none => []
  | some pattern =>
    match pattern.kind with
    | .objectPattern =>
      ((pattern.all .property).filter fun property =>
        match (property.get? .value).map Node.kind with
        | some .assignmentPattern => true
        | _ => false).filterMap Node.keyName?
    | _ => []

/-- The findings about one component. -/
def findings (ignore : Naming.GlobList) (aliases : AliasTable) (component : NamedFunction) :
    List Diagnostic :=
  match component.params.head? with
  | none => []
  | some param =>
    match param.get? .type with
    | none => []
    | some type =>
      let defaulted := defaultedKeys param
      ((optionalProps ignore aliases type).filter fun prop => !defaulted.contains prop).map
        fun prop =>
          ⟨param.span, "noOptionalPropWithoutDefault",
            [("component", component.name), ("prop", prop)]⟩

/-- The optional props without a default. -/
def check (ignore : Naming.GlobList) : Check := fun s =>
  s.model.components.flatMap (findings ignore s.aliases)

end OptionalProps

/-- Asks for defaults of optional props. -/
def noOptionalPropsWithoutDefaults : Rule where
  name := "no-optional-props-without-defaults"
  category := .react
  description := "Disallow authored optional component props unless they are defaulted at the component boundary."
  messages :=
    [("noOptionalPropWithoutDefault", "Component '" ++ hole "component" ++ "' prop '" ++
      hole "prop" ++ "' is optional without a default.")]
  configure := fun data => (ObjectProps.ignore? data).map OptionalProps.check

/-! ### Boolean props -/

namespace BooleanProps

/-- Whether a member is a handler: a method, or a property that is a function, named like one. -/
def isHandler (shapes : Shapes) (name : String) (member : Node) : Bool :=
  Naming.isHandlerName name &&
    match member.kind with
    | .methodSignature _ => true
    | .propertySignature .. => (member.get? .type).any shapes.isFunction
    | _ => false

/-- Whether a member is a boolean property. -/
def isBooleanProperty (shapes : Shapes) (member : Node) : Bool :=
  match member.kind with
  | .propertySignature .. => (member.get? .type).any shapes.isBoolean
  | _ => false

/-- The members of a contract that count, by name. -/
def namedMembers (ignore : List String) (c : Contract) : List (String × Node) :=
  (c.members.filterMap fun member => member.signatureKey?.map fun name => (name, member)).filter
    fun (name, _) => !ignore.contains name

/-- How the handler that controls a prop starts. -/
def handlerStart (prop : String) : String := "on" ++ Text.capitalize prop

/-- The findings about one contract. -/
def findings (ignore : List String) (shapes : Shapes) (c : Contract) : List Diagnostic :=
  let members := namedMembers ignore c
  let handlers := (members.filter fun (name, member) => isHandler shapes name member).map Prod.fst
  let booleans := members.filter fun (name, member) =>
    !isHandler shapes name member && isBooleanProperty shapes member
  (booleans.filter fun (name, _) =>
    !handlers.any fun handler => Text.startsWith handler (handlerStart name)).map
      fun (name, member) =>
        ⟨(member.keyNode?.map Node.span).getD member.span, "noBooleanCapabilityProp",
          [("prop", name), ("handlerPrefix", handlerStart name)]⟩

/-- The boolean props that no handler controls. -/
def check (ignore : List String) : Check := fun s =>
  (s.model.propsContracts s.aliases).flatMap (findings ignore s.shapes)

/-- Reads the names that do not count. -/
def ignore? (data : Data) : Option (List String) := do
  let table ← OptionTable.ofData? ["ignore", "ignoreNativeBooleanProps"] data
  let ignore ← table.read? "ignore" Data.texts? []
  let native ← table.read? "ignoreNativeBooleanProps" Data.bool? false
  pure (ignore ++ if native then Naming.nativeBooleanProps else [])

end BooleanProps

/-- Asks for handlers that control boolean props. -/
def noBooleanCapabilityProps : Rule where
  name := "no-boolean-capability-props"
  category := .react
  description := "Disallow boolean component props without associated control handlers in prop contracts."
  messages :=
    [("noBooleanCapabilityProp", "Boolean prop '" ++ hole "prop" ++
      "' has no controlled handler ('" ++ hole "handlerPrefix" ++
      "…'). Prefer controlled APIs, compound composition, or an explicit variant prop.")]
  configure := fun data => (BooleanProps.ignore? data).map BooleanProps.check

/-! ### Number of props -/

namespace MaxProps

/-- The options of the rule: the bound, and the names that do not count beside `children`. -/
structure Options where
  threshold : Nat
  ignore : List String

/-- Reads the options; the bound is at least one. -/
def Options.ofData? (data : Data) : Option Options := do
  let table ← OptionTable.ofData? ["threshold", "ignore"] data
  let threshold ← table.read? "threshold" Data.count? 8
  let ignore ← table.read? "ignore" Data.texts? []
  if threshold = 0 then none else some ⟨threshold, ignore⟩

/-- The number of named members of a contract that count. -/
def count (options : Options) (c : Contract) : Nat :=
  ((c.members.filterMap Node.signatureKey?).filter fun name =>
    name != "children" && !options.ignore.contains name).length

/-- The props contracts with too many props. -/
def check (options : Options) : Check := fun s =>
  (s.model.contracts.filter fun c => c.isProps && options.threshold < count options c).map fun c =>
    ⟨c.span, "maxCustomProps",
      [("name", c.name), ("count", toString (count options c)),
        ("threshold", toString options.threshold)]⟩

end MaxProps

/-- Bounds the number of props of a contract. -/
def maxCustomProps : Rule where
  name := "max-custom-props"
  category := .react
  description := "Limit the number of custom props in component prop contracts to encourage composition."
  messages :=
    [("maxCustomProps", "Prop contract '" ++ hole "name" ++ "' declares " ++ hole "count" ++
      " props (max " ++ hole "threshold" ++ "). Prefer splitting into compound parts.")]
  configure := fun data => (MaxProps.Options.ofData? data).map MaxProps.check

end TsxLint
