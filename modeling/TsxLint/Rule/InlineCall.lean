import TsxLint.Naming.Glob
import TsxLint.Rule.Basic
import TsxLint.Rule.Options

/-!
# Calls inside loop headers and arguments

A call in the header of a loop or in the argument of another call should be bound to a name first.
The iterable of a `for` loop over values may be a call to a listed callee.
-/

namespace TsxLint

namespace InlineCall

/-- Where a call is looked for. -/
inductive Place
  | loopHeader
  | argument
  deriving DecidableEq, Repr

/-- The options of the rule. -/
structure Options where
  places : List Place
  allowedIterables : Naming.GlobList

/-- Reads the options. An empty list of places stands for all places. -/
def Options.ofData? (data : Data) : Option Options := do
  let table ← OptionTable.ofData? ["contexts", "allowCallPatterns"] data
  let words := [("for-header", Place.loopHeader), ("call-arg", Place.argument)]
  let all := [Place.loopHeader, Place.argument]
  let places ← table.read? "contexts" (Data.listOf? (Data.choice? words)) all
  let globs ← table.read? "allowCallPatterns" Data.texts? ["*.entries", "*.values", "*.keys"]
  pure ⟨if places.isEmpty then all else places, .ofGlobs globs⟩

mutual

/-- The dotted name of a callee: identifiers and plain properties. What the properties start from
is left out if it is neither. -/
def dottedName? : Node → Option String
  | ⟨_, _, .identifierReference name, _, _⟩ => some name
  | ⟨_, _, .memberExpression _, _, children⟩ =>
    let property := (children.find? fun c =>
      c.role == .property || c.role == .privateProperty || c.role == .computedProperty).bind
        fun c => if c.role == .property then c.nameText? else none
    property.map fun property =>
      match dottedNameIn? children with
      | some object => object ++ "." ++ property
      | none => property
  | _ => none

/-- The dotted name of the object among the parts of a member access. -/
def dottedNameIn? : List Node → Option String
  | [] => none
  | n :: ns => if n.role == .object then dottedName? n else dottedNameIn? ns

end

/-- Whether a part belongs to the header of the loop that holds it. -/
def isHeaderPart (holder part : Node) : Bool :=
  match holder.kind with
  | .forStatement => part.role == .initial || part.role == .test || part.role == .update
  | .forInStatement .. => part.role == .right
  | _ => false

/-- Whether a part is an argument of the call that holds it. -/
def isArgument (holder part : Node) : Bool :=
  match holder.kind with
  | .callExpression _ => part.role == .argument
  | _ => false

/-- Whether a node, or a node around it, stands in a place within its holder. -/
def isPlaced (place : Node → Node → Bool) (n : Node) (ancestors : List Node) : Bool :=
  (ancestors.zip (n :: ancestors)).any fun (holder, part) => place holder part

/-- Whether a call is the iterable of a loop over values and its callee is listed. -/
def isAllowedIterable (options : Options) (call : Node) (ancestors : List Node) : Bool :=
  match ancestors.head?.map Node.kind with
  | some (.forInStatement .overValues _ _) =>
    call.role == .right &&
      ((call.get? .callee).bind dottedName?).any options.allowedIterables.matches
  | _ => false

/-- The message about a call. -/
def message? (options : Options) (call : Node) (ancestors : List Node) : Option String :=
  if options.places.contains .loopHeader && isPlaced isHeaderPart call ancestors &&
      !isAllowedIterable options call ancestors then some "noCallInForHeader"
  else if options.places.contains .argument && isPlaced isArgument call ancestors then
    some "noCallArg"
  else none

/-- The calls that should have a name. -/
def check (options : Options) : Check := fun s =>
  s.model.visits.filterMap fun v =>
    match v.node.kind with
    | .callExpression _ =>
      (message? options v.node v.ancestors).map fun id => ⟨v.node.span, id, []⟩
    | _ => none

end InlineCall

/-- Asks for names of calls in loop headers and arguments. -/
def noInlineCallExpressions : Rule where
  name := "no-inline-call-expressions"
  category := .core
  description := "Prefer extracting function calls into variables instead of placing them in loop headers or call arguments."
  messages :=
    [("noCallInForHeader",
      "Extract this function call from the for-loop header into a named variable."),
      ("noCallArg",
        "Extract this function call into a variable before passing it as an argument.")]
  configure := fun data => (InlineCall.Options.ofData? data).map InlineCall.check

end TsxLint
