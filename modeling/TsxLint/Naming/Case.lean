import TsxLint.Text.Affix
import TsxLint.Text.Blank
import TsxLint.Text.Case

/-!
# Case conventions of names

Classifiers for the names of components, hooks and handlers, and the component-family name that a
file name suggests.
-/

namespace TsxLint.Naming

/-- Whether the first character is one of `A` to `Z`. -/
def startsUppercase (name : String) : Bool := (Text.first? name).any Char.isUpper

/-- Whether a name is one of `A` to `Z` followed by letters and digits of ASCII. -/
def isStrictPascalCase (name : String) : Bool :=
  match name.toList with
  | [] => false
  | c :: rest => c.isUpper && rest.all Text.isAsciiAlphanumeric

/-- Whether `name` begins with `word` and goes on after it. -/
def hasWordStart (name word : String) : Bool :=
  match Text.stripStart? name word with
  | some rest => rest != ""
  | none => false

/-- Whether a name is `use` and something after it. -/
def isHookName (name : String) : Bool := hasWordStart name "use"

/-- Whether a name is `on` followed by a capital. -/
def isHandlerName (name : String) : Bool := (Text.stripStart? name "on").any startsUppercase

/-- Whether upper case leaves the first character as it is; digits and `_` qualify. -/
def firstIsUpperOrCaseless (value : String) : Bool :=
  (Text.first? value).any fun c => Text.upperChar c == [c]

/-- The family name that a file stem suggests: its words capitalized and joined. -/
def pascalFromFileStem (stem : String) : String :=
  String.join (((Text.splitWhere (fun c => c == '-' || c == '_' || c == '.' || c == ' ') stem).filter
    (· != "")).map Text.capitalize)

/-- Whether a type name is that of a props contract. -/
def isPropsName (name : String) : Bool := Text.endsWith name "Props"

/-- The name of a rule as configuration may spell it: in any case, with `_` for `-`. -/
def normalizeRuleName (key : String) : String :=
  Text.replaceChar '_' '-' (Text.asciiLower (Text.trim key))

/-- The parts that a compound component family conventionally exposes. -/
def commonPartNames : List String :=
  ["Root", "Trigger", "Content", "Title", "Description", "Header", "Footer", "Body", "Item",
    "Group", "Label", "Input", "Control", "Indicator", "Icon", "Arrow", "Portal", "Overlay"]

/-- The block and the part of a compound name: a capital and lower-case letters or digits, then a
common part name. -/
def compoundParts (name : String) : Option (String × String) :=
  match name.toList with
  | [] => none
  | c :: rest =>
    let isBlock := fun (d : Char) => d.isLower || d.isDigit
    let block := rest.takeWhile isBlock
    let part := String.ofList (rest.dropWhile isBlock)
    if c.isUpper && !block.isEmpty && commonPartNames.contains part then
      some (String.ofList (c :: block), part)
    else none

end TsxLint.Naming
