import TsxLint.Naming.Vocabulary
import TsxLint.Rule.PropName

/-!
# Names of handlers

A handler prop is named `on`, what it is about, and a verb: `onValueChange`. One rule asks for the
verb at the end. The other asks for the noun before the verb, where a name can be split in one way
only. Both read names with a vocabulary that options may extend.

## Main definitions

* `splitBytes?`: a text cut after a number of bytes.
* `VerbSuffix.suggestion?`, `NounVerb.suggestion?`: the better name of a prop.
* `jsxOnHandlerVerbSuffix`, `jsxOnNounVerbHandlerProps`: the rules.
-/

namespace TsxLint

/-- A text cut after `n` bytes, if a character ends there. -/
def Text.splitBytes? (s : String) (n : Nat) : Option (String × String) := do
  let first ← Text.takeBytes? s.toList n
  let rest ← Text.dropBytes? s.toList n
  pure (String.ofList first, String.ofList rest)

/-- What follows the `on` of a handler name. -/
def handlerRest (prop : String) : String := (Text.stripStart? prop "on").getD ""

/-- A leading verb moved behind the rest of the name: `ValueChange` for `ChangeValue`. The rest has
to go on like a new word. -/
def moveVerb? (rest verb : String) : Option String := do
  let (leading, subject) ← Text.splitBytes? rest verb.utf8ByteSize
  if subject != "" && Naming.firstIsUpperOrCaseless subject then some ("on" ++ subject ++ leading)
  else none

namespace VerbSuffix

/-- Whether the part after `on` ends with a verb. -/
def endsWithVerb (verbs : List String) (rest : String) : Bool :=
  verbs.any fun verb => Text.endsWith (Text.lower rest) verb

/-- The name with its leading verb moved to the end. -/
def suggestion? (verbs : List String) (rest : String) : Option String :=
  if rest.length < 2 then none
  else
    verbs.findSome? fun verb =>
      if Text.startsWith (Text.lower rest) verb then moveVerb? rest verb else none

/-- The finding about a prop. -/
def finding? (verbs : List String) (prop : String) (span : Span) : Option Diagnostic :=
  if !Naming.isHandlerName prop || endsWithVerb verbs (handlerRest prop) then none
  else
    match suggestion? verbs (handlerRest prop) with
    | some suggestion =>
      some ⟨span, "preferVerbSuffix", [("suggestion", suggestion), ("prop", prop)]⟩
    | none => some ⟨span, "mustEndWithVerb", [("prop", prop)]⟩

/-- The handler props that do not end with a verb. -/
def check (verbs : List String) : Check := fun s =>
  s.attributes.filterMap fun a => finding? verbs a.tagName a.nameSpan

/-- Reads the verbs that options add, merged with the known ones. -/
def verbs? (data : Data) : Option (List String) := do
  let table ← OptionTable.ofData? ["extendVerbs"] data
  let extension ← table.read? "extendVerbs" Data.texts? []
  pure (Naming.mergeVocabulary Naming.handlerVerbs extension)

end VerbSuffix

open Template (hole)

/-- Asks handler props to end with a verb. -/
def jsxOnHandlerVerbSuffix : Rule where
  name := "jsx-on-handler-verb-suffix"
  category := .react
  description := "Ensure on* handler prop names end with a verb (for example onValueChange)."
  messages :=
    [("mustEndWithVerb", "Handler prop '" ++ hole "prop" ++
      "' should end with a verb (for example 'onValueChange')."),
      ("preferVerbSuffix", "Prefer '" ++ hole "suggestion" ++ "' over '" ++ hole "prop" ++
        "' so the handler name ends with a verb.")]
  configure := fun data => (VerbSuffix.verbs? data).map VerbSuffix.check

namespace NounVerb

/-- The words that names are read with. -/
structure Words where
  verbs : List String
  nouns : List String

/-- Reads the words that options add, merged with the known ones. -/
def Words.ofData? (data : Data) : Option Words := do
  let table ← OptionTable.ofData? ["extendVerbs", "extendNouns"] data
  let verbs ← table.read? "extendVerbs" Data.texts? []
  let nouns ← table.read? "extendNouns" Data.texts? []
  pure ⟨Naming.mergeVocabulary (Naming.handlerVerbs ++ Naming.pastTenseVerbs) verbs,
    Naming.mergeVocabulary Naming.handlerNouns nouns⟩

/-- Whether the part after `on` already reads as a known noun and a verb. -/
def isNounVerb (words : Words) (rest : String) : Bool :=
  words.verbs.any fun verb =>
    (Text.stripEnd? (Text.lower rest) verb).any fun noun =>
      noun != "" &&
        (Text.splitBytes? rest noun.utf8ByteSize).any (Naming.firstIsUpperOrCaseless ·.1) &&
        words.nouns.contains noun

/-- The first leading verb that can be moved. A leading verb that is also a noun ends the search. -/
def moveLeading? (words : Words) (rest : String) : List String → Option String
  | [] => none
  | verb :: verbs =>
    if Text.startsWith (Text.lower rest) verb then
      if words.nouns.contains verb then none
      else (moveVerb? rest verb).or (moveLeading? words rest verbs)
    else moveLeading? words rest verbs

/-- The name with the noun before the verb. -/
def suggestion? (words : Words) (prop : String) : Option String :=
  let rest := handlerRest prop
  if !Naming.hasWordStart prop "on" || rest.length < 2 || isNounVerb words rest then none
  else moveLeading? words rest words.verbs

/-- The handler props whose verb stands before the noun. -/
def check (words : Words) : Check := fun s =>
  s.attributes.filterMap fun a =>
    (suggestion? words a.tagName).map fun suggestion =>
      ⟨a.nameSpan, "preferNounVerb", [("prop", a.tagName), ("suggestion", suggestion)]⟩

end NounVerb

/-- Asks for the noun before the verb in handler props. -/
def jsxOnNounVerbHandlerProps : Rule where
  name := "jsx-on-noun-verb-handler-props"
  category := .react
  description := "Prefer on\x7bNoun\x7d\x7bVerb\x7d over on\x7bVerb\x7d\x7bNoun\x7d for handler prop names (e.g. onValueChange over onChangeValue)."
  messages :=
    [("preferNounVerb", "Prefer '" ++ hole "suggestion" ++ "' over '" ++ hole "prop" ++
      "' (noun before verb).")]
  configure := fun data => (NounVerb.Words.ofData? data).map NounVerb.check

end TsxLint
