import TsxLint.Naming.Case
import TsxLint.Rule.Basic
import TsxLint.Rule.Options

/-!
# Names of props

Rules about the names of the attributes in markup: no capital at the start, no hyphens outside of
`aria-` and `data-`, and no bundles of names that share their first word.
-/

namespace TsxLint

/-- The attributes of a file, in source order. -/
def Subject.attributes (s : Subject) : List Node :=
  s.nodes.filter fun n =>
    match n.kind with
    | .jsxAttribute => true
    | _ => false

/-- The span of the name of an attribute. -/
def Node.nameSpan (n : Node) : Span := ((n.get? .name).map Node.span).getD n.span

/-- The name of an attribute that is a single identifier. -/
def Node.plainName? (n : Node) : Option Node :=
  (n.get? .name).bind fun name =>
    match name.kind with
    | .jsxIdentifier _ => some name
    | _ => none

open Template (hole)

/-- The attributes whose name starts with a capital. -/
def TitleCase.check : Check := fun s =>
  (s.attributes.filter fun a => Naming.startsUppercase a.tagName).map fun a =>
    ⟨a.nameSpan, "noTitleCase",
      [("suggestion", Text.lowerFirst a.tagName), ("prop", a.tagName)]⟩

/-- Refuses props that start with a capital. -/
def noTitleCaseProps : Rule where
  name := "no-title-case-props"
  category := .react
  description := "Disallow TitleCase JSX props"
  messages :=
    [("noTitleCase", "Prop '" ++ hole "prop" ++
      "' uses TitleCase. Use camelCase instead (e.g. " ++ hole "suggestion" ++ ").")]
  configure := withoutOptions TitleCase.check

/-- Whether a name is hyphenated and not one of the two native families. -/
def isCustomKebab (name : String) : Bool :=
  name.toList.contains '-' && !(Text.startsWith name "aria-" || Text.startsWith name "data-")

/-- The attributes with a hyphenated name of their own. -/
def KebabCase.check : Check := fun s =>
  (s.attributes.filter fun a => isCustomKebab a.tagName).map fun a =>
    ⟨a.nameSpan, "noCustomKebab", [("prop", a.tagName)]⟩

/-- Refuses hyphenated props beside `aria-*` and `data-*`. -/
def noCustomKebabCaseProps : Rule where
  name := "no-custom-kebab-case-props"
  category := .react
  description := "Disallow custom kebab-case JSX props (allows aria-* and data-*)"
  messages :=
    [("noCustomKebab", "Custom kebab-case prop '" ++ hole "prop" ++
      "' is not allowed. Use camelCase, or use aria-* / data-* for native HTML attributes.")]
  configure := withoutOptions KebabCase.check

namespace PropBundle

/-- First words that name a flag or a namespace and no bundle. -/
def ignoredWords : List String := ["aria", "can", "data", "has", "is", "on", "should"]

/-- The first word of a name that goes on with a capital: `user` for `userName`. -/
def firstWord? (name : String) : Option String :=
  let cs := name.toList
  let word := String.ofList (cs.takeWhile fun c => !c.isUpper)
  if cs.head?.any Char.isLower && cs.any Char.isUpper && !ignoredWords.contains word then some word
  else none

/-- The attribute names of an opening element with their first words. -/
def members (opening : Node) : List (String × Node) :=
  (opening.all .item).filterMap fun item =>
    match item.kind with
    | .jsxAttribute =>
      item.plainName?.bind fun name => (firstWord? name.label).map fun w => (w, name)
    | _ => none

/-- The findings about one element: the bundles in order of their first member. -/
def findings (threshold : Nat) (opening : Node) : List Diagnostic :=
  let members := members opening
  ((members.map Prod.fst).eraseDups.map fun word =>
    (word, (members.filter (·.1 == word)).map Prod.snd)).flatMap fun (word, names) =>
      if names.length < threshold then []
      else
        names.map fun name =>
          ⟨name.span, "noPrefixedPropBundle",
            [("prop", name.label), ("prefix", word),
              ("count", toString names.length)]⟩

/-- The members of bundles of at least `threshold` attributes. -/
def check (threshold : Nat) : Check := fun s =>
  s.nodes.flatMap fun n =>
    match n.kind with
    | .jsxOpeningElement => findings threshold n
    | _ => []

/-- Reads the threshold, which is at least two. -/
def threshold? (data : Data) : Option Nat := do
  let table ← OptionTable.ofData? ["threshold"] data
  let threshold ← table.read? "threshold" Data.count? 3
  if threshold < 2 then none else some threshold

end PropBundle

/-- Refuses bundles of props that share their first word. -/
def noPrefixedPropBundles : Rule where
  name := "no-prefixed-prop-bundles"
  category := .react
  description := "Disallow bundles of similarly-prefixed JSX props that suggest over-grouped component APIs."
  messages :=
    [("noPrefixedPropBundle", "Prop '" ++ hole "prop" ++ "' is part of a '" ++ hole "prefix" ++
      "*' prop bundle (" ++ hole "count" ++ " props). Prefer unprefixed, explicit props and compound composition. If grouped data must be shared, use context.")]
  configure := fun data => (PropBundle.threshold? data).map PropBundle.check

end TsxLint
