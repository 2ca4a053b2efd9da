import TsxLint.Naming.Case
import TsxLint.Rule.Basic
import TsxLint.Rule.Options

/-!
# What handlers return

Rules about the return types that prop contracts expect of functions: a handler returns nothing,
and a function that returns a promise is an action.
-/

namespace TsxLint

/-- The types that a property or method signature expects its function to return. -/
def Node.expectedReturns (n : Node) : List Node :=
  match n.kind with
  | .propertySignature .. => ((n.get? .type).map returnTypes).getD []
  | .methodSignature _ => (n.get? .returnType).toList
  | _ => []

/-- The signatures of a file with a key and a return type of which `p` holds: the key, the
signature and the first such type. -/
def Subject.signaturesReturning (s : Subject) (p : Node → Bool) : List (String × Node × Node) :=
  s.nodes.filterMap fun n => do
    let returned ← n.expectedReturns.find? p
    let key ← n.keyName?
    pure (key, n, returned)

/-- Whether a type is the keyword `void`. -/
def isVoid (n : Node) : Bool :=
  match n.kind with
  | .keywordType .void => true
  | _ => false

/-- The handler signatures that expect a return value. -/
def HandlerReturn.check : Check := fun s =>
  ((s.signaturesReturning fun t => !isVoid t).filter fun (key, _) =>
    Naming.hasWordStart key "on").map fun (key, signature, returned) =>
      ⟨signature.span, "noHandlerReturnType",
        [("prop", key), ("returnType", s.text returned.span)]⟩

/-- Whether a name is that of an action. -/
def isActionName (name : String) : Bool := name == "action" || Text.endsWith name "Action"

/-- The signatures of functions that return a promise and are not named as actions. -/
def ActionName.check : Check := fun s =>
  ((s.signaturesReturning isPromise).filter fun (key, _) => !isActionName key).map
    fun (key, signature, returned) =>
      ⟨signature.span, "asyncPropRequiresActionName",
        [("prop", key), ("returnType", s.text returned.span)]⟩

open Template (hole)

/-- Refuses handler contracts that expect a return value. -/
def noHandlerReturnType : Rule where
  name := "no-handler-return-type"
  category := .react
  description := "Disallow handler prop definitions (on*) that expect return values. Handler contracts must return void."
  messages :=
    [("noHandlerReturnType", "Handler prop '" ++ hole "prop" ++ "' expects return type '" ++
      hole "returnType" ++
      "'. Handler prop definitions must not expect return values; use void.")]
  configure := withoutOptions HandlerReturn.check

/-- Asks for action names of props that are functions returning a promise. -/
def jsxServerActionPropSuffix : Rule where
  name := "jsx-server-action-prop-suffix"
  category := .react
  description := "Enforce async function prop contracts to use action prop names (action or *Action)."
  messages :=
    [("asyncPropRequiresActionName", "Prop '" ++ hole "prop" ++
      "' expects an async function type ('" ++ hole "returnType" ++
      "'). Async function props must be named 'action' or end with 'Action'.")]
  configure := withoutOptions ActionName.check

end TsxLint
