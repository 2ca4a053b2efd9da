import TsxLint.Component.Markup
import TsxLint.Rule.HandlerName
import TsxLint.Text.Word

/-!
# Names of helper functions

Some names are reserved: `set*` for the setters of state, `handle*` for functions that some `on*`
prop is given, and names that are not Pascal case for functions that return no markup.

## Main definitions

* `Text.identifiersFrom`: the identifiers of a text that start at the edge of a word.
* `HandleName.wired`: the names that reach an `on*` prop.
* `noSetPrefixUtils`, `noHandlePrefixUtils`, `noRenderHelperFunctions`: the rules.
-/

namespace TsxLint

open Template (hole)

/-- The named functions of which `p` holds, each reported at its name. -/
def Subject.reportFunctions (s : Subject) (id : String) (p : NamedFunction → Bool) :
    List Diagnostic :=
  (s.model.namedFunctions.filter p).map fun f => ⟨f.nameNode.span, id, [("name", f.name)]⟩

/-- The functions named `set*`. -/
def SetName.check : Check := fun s =>
  s.reportFunctions "noSetPrefixUtil" fun f => Naming.hasWordStart f.name "set"

/-- Reserves `set*` for the setters of state. -/
def noSetPrefixUtils : Rule where
  name := "no-set-prefix-utils"
  category := .react
  description := "Forbid util/helper functions prefixed with set*; allow React state setter identifiers from useState tuple destructuring"
  messages :=
    [("noSetPrefixUtil", "Util/helper function '" ++ hole "name" ++
      "' should not use set*. Reserve set* for React useState setters.")]
  configure := withoutOptions SetName.check

/-! ### Handlers -/

/-- The identifiers that start with `start` at the edge of a word, from left to right. What has been
taken is not looked at again; `previous` is the character before the text. -/
def Text.identifiersFrom (start : List Char) (previous : Option Char) (cs : List Char) :
    List (List Char) :=
  match cs with
  | [] => []
  | c :: rest =>
    match Text.after? start (c :: rest) with
    | some tail =>
      if previous.any Text.isWordChar then identifiersFrom start (some c) rest
      else
        let name := start ++ tail.takeWhile Text.isIdentifierChar
        name :: identifiersFrom start (((c :: rest).take name.length).getLast?)
          (rest.drop (name.length - 1))
    | none => identifiersFrom start (some c) rest
termination_by cs.length

namespace HandleName

/-- Whether a value makes a handler: a function, or a call that memoizes one. -/
def isHandlerValue (n : Node) : Bool :=
  n.isFunctionLike ||
    match n.kind with
    | .callExpression _ => (n.get? .callee).bind Node.calleeName? == some "useCallback"
    | _ => false

/-- The identifier of a `handle*` function that a node declares. -/
def candidate? (n : Node) : Option Node :=
  let name :=
    match n.kind with
    | .function .declaration _ _ => n.get? .name
    | .variableDeclarator => if (n.get? .initial).any isHandlerValue then n.boundName? else none
    | _ => none
  name.filter fun name => Naming.hasWordStart name.label "handle"

/-- The values of the properties of an object expression that are named like handlers. -/
def handlerProperties (object : Node) : List Node :=
  (object.all .property).filterMap fun property =>
    match property.kind, property.propKey? with
    | .objectProperty .., some key =>
      if Naming.isHandlerName key then property.get? .value else none
    | _, _ => none

/-- The values that a node hands to `on*` props. -/
def handlerValues (n : Node) : List Node :=
  match n.kind with
  | .jsxAttribute =>
    match n.plainName?, n.get? .value with
    | some name, some value =>
      match value.kind with
      | .jsxExpressionContainer =>
        if Naming.isHandlerName name.label then (value.get? .expression).toList else []
      | _ => []
    | _, _ => []
  | .jsxSpreadAttribute =>
    match n.get? .argument with
    | some argument =>
      match argument.kind with
      | .objectExpression => handlerProperties argument
      | _ => []
    | none => []
  | _ => []

/-- The `handle*` names in the values that reach an `on*` prop. -/
def wired (s : Subject) : List String :=
  (s.nodes.flatMap handlerValues).flatMap fun value =>
    (Text.identifiersFrom "handle".toList none (s.text value.span).toList).map String.ofList

/-- The `handle*` functions that reach no `on*` prop. -/
def check : Check := fun s =>
  let wired := wired s
  ((s.nodes.filterMap candidate?).filter fun name => !wired.contains name.label).map fun name =>
    ⟨name.span, "noHandlePrefixUtil", [("name", name.label)]⟩

end HandleName

/-- Reserves `handle*` for functions that an `on*` prop is given. -/
def noHandlePrefixUtils : Rule where
  name := "no-handle-prefix-utils"
  category := .react
  description := "Forbid util/helper functions prefixed with handle* unless they are used as JSX on* handlers"
  messages :=
    [("noHandlePrefixUtil", "Util/helper function '" ++ hole "name" ++
      "' should not use handle*. Reserve handle* for functions used in JSX on* props.")]
  configure := withoutOptions HandleName.check

/-! ### Markup -/

/-- Whether a body returns markup at its top level. -/
def Body.yieldsMarkup : Body → Bool
  | block node => (topLevelReturns node).any Node.yieldsJsx
  | expression node => node.yieldsJsx

/-- The functions that return markup under a name that is not Pascal case. -/
def RenderHelper.check : Check := fun s =>
  s.reportFunctions "noRenderHelperFunctions" fun f =>
    !Naming.isStrictPascalCase f.name && f.body?.any Body.yieldsMarkup

/-- Asks for component names of functions that return markup. -/
def noRenderHelperFunctions : Rule where
  name := "no-render-helper-functions"
  category := .react
  description := "Disallow non-PascalCase functions that return JSX."
  messages :=
    [("noRenderHelperFunctions", "Function '" ++ hole "name" ++
      "' returns JSX but is not PascalCase. Use a component name (PascalCase) or move the JSX elsewhere.")]
  configure := withoutOptions RenderHelper.check

end TsxLint
