import TsxLint.Data
import TsxLint.Text.Affix

/-!
# JSON text

Plain data is written as JSON with one item or entry a line, two blanks to a level.

## Main definitions

* `Json.quoted`: a text between quotes.
* `Data.json`: the JSON text of plain data.
-/

namespace TsxLint

namespace Json

/-- Four hexadecimal digits. -/
def hexDigits (n : Nat) : List Char :=
  let digits := Nat.toDigits 16 n
  List.replicate (4 - digits.length) '0' ++ digits

/-- The characters written for a character between quotes. -/
def escaped (c : Char) : List Char :=
  match c with
  | '"' => ['\\', '"']
  | '\\' => ['\\', '\\']
  | '\n' => ['\\', 'n']
  | '\r' => ['\\', 'r']
  | '\t' => ['\\', 't']
  | '\x08' => ['\\', 'b']
  | '\x0c' => ['\\', 'f']
  | c => if c.toNat < 0x20 then '\\' :: 'u' :: hexDigits c.toNat else [c]

/-- A text between quotes. -/
def quoted (text : String) : String := String.ofList ('"' :: text.toList.flatMap escaped ++ ['"'])

/-- A decimal fraction. -/
def decimal (mantissa : Int) (exponent : Nat) : String :=
  let digits := Nat.toDigits 10 mantissa.natAbs
  let padded := List.replicate (exponent + 1 - digits.length) '0' ++ digits
  let places := padded.length - exponent
  let sign := if mantissa < 0 then "-" else ""
  sign ++ String.ofList (padded.take places) ++ "." ++ String.ofList (padded.drop places)

/-- The start of a line at a level. -/
def indent (level : Nat) : String := String.ofList (List.replicate (2 * level) ' ')

/-- Parts between brackets, one a line. -/
def bracketed (opening closing : String) (level : Nat) (parts : List String) : String :=
  if parts.isEmpty then opening ++ closing
  else
    let lines := parts.map fun part => indent (level + 1) ++ part
    opening ++ "\n" ++ Text.joinWith ",\n" lines ++ "\n" ++ indent level ++ closing

end Json

namespace Data

mutual

/-- The JSON text of a value at a level. -/
def jsonAt (level : Nat) : Data → String
  | null => "null"
  | bool true => "true"
  | bool false => "false"
  | whole value => toString value
  | fraction mantissa exponent => Json.decimal mantissa exponent
  | text value => Json.quoted value
  | list items => Json.bracketed "[" "]" level (jsonItems (level + 1) items)
  | table entries => Json.bracketed "\x7b" "\x7d" level (jsonEntries (level + 1) entries)

/-- The JSON texts of the items of a list. -/
def jsonItems (level : Nat) : List Data → List String
  | [] => []
  | item :: items => item.jsonAt level :: jsonItems level items

/-- The JSON texts of the entries of a table. -/
def jsonEntries (level : Nat) : List (String × Data) → List String
  | [] => []
  | (key, value) :: entries =>
    (Json.quoted key ++ ": " ++ value.jsonAt level) :: jsonEntries level entries

end

/-- The JSON text of a value. -/
def json (data : Data) : String := data.jsonAt 0

end Data

end TsxLint
