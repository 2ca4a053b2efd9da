import TsxLint.Data
import TsxLint.Text.Affix
import TsxLint.Text.Blank
import TsxLint.Text.Case

/-!
# Settings from the environment

A variable whose name starts with the tool's own word sets a value: the rest of the name, in lower
case and cut at double underscores, is the path of the value. The text of a variable is read as a
truth value, a number, a quoted text, a list in brackets or a table in braces; any other text, and
any text that goes on after such a value, stands for itself.

## Main definitions

* `ValueText.read`: the value that a text stands for.
* `Environment.path?`: the path that a variable sets.
* `Data.merge`: two values, the second over the first.
* `Environment.toData`: everything that variables set.
-/

namespace TsxLint

mutual

/-- Two values, the second over the first: tables are merged entry by entry, and any other value is
replaced. -/
def Data.merge : Data → Data → Data
  | .table base, .table upper =>
    .table (mergeEntries upper base ++
      upper.filter fun e => !base.any fun b => b.1 == e.1)
  | _, upper => upper

/-- The entries of a table, each with the entry of `upper` of the same key over it. -/
def Data.mergeEntries (upper : List (String × Data)) :
    List (String × Data) → List (String × Data)
  | [] => []
  | (key, value) :: rest =>
    let merged :=
      match upper.lookup key with
      | some above => Data.merge value above
      | none => value
    (key, merged) :: mergeEntries upper rest

end

namespace ValueText

/-- White space of ASCII. -/
def isSpace (c : Char) : Bool :=
  c == ' ' || c == '\t' || c == '\n' || c == '\r' || c == '\x0c'

/-- Whether a character may stand in a text without quotes. -/
def isPlain (c : Char) : Bool := !([',', '\x7b', '\x7d', '[', ']'].contains c)

/-- Whether a character may stand in a key without quotes. -/
def isKeyChar (c : Char) : Bool := c.isAlphanum || c == '_' || c == '-'

/-- The number that digits spell. -/
def digits? (cs : List Char) : Option Nat :=
  if cs.isEmpty || !cs.all Char.isDigit then none
  else some (cs.foldl (fun n c => 10 * n + (c.toNat - '0'.toNat)) 0)

/-- A sign and what follows it. -/
def signed (cs : List Char) : Bool × List Char :=
  match cs with
  | '-' :: rest => (true, rest)
  | '+' :: rest => (false, rest)
  | rest => (false, rest)

/-- A whole number of 64 bits, with or without a sign. -/
def whole? (cs : List Char) : Option Int := do
  let (negative, body) := signed cs
  let n ← digits? body
  if negative then (if n ≤ UInt64.size / 2 then some (-(n : Int)) else none)
  else if n < UInt64.size then some (n : Int) else none

/-- The exponent that ends a number, after its mark. -/
def exponent? (cs : List Char) : Option Int :=
  match cs with
  | [] => some 0
  | c :: rest =>
    if c == 'e' || c == 'E' then
      let (negative, body) := signed rest
      (digits? body).map fun n => if negative then -(n : Int) else (n : Int)
    else none

/-- A number with a decimal point. At least one digit stands beside the point. -/
def fraction? (cs : List Char) : Option Data := do
  let (negative, body) := signed cs
  let left := body.takeWhile Char.isDigit
  match body.dropWhile Char.isDigit with
  | '.' :: rest =>
    let right := rest.takeWhile Char.isDigit
    let exponent ← exponent? (rest.dropWhile Char.isDigit)
    let mantissa ← digits? (left ++ right)
    let value : Int := if negative then -(mantissa : Int) else (mantissa : Int)
    let places : Int := right.length - exponent
    if 1 ≤ places then some (.fraction value places.toNat)
    else some (.fraction (value * Int.ofNat (Nat.pow 10 (1 - places).toNat)) 1)
  | _ => none

/-- What a text without quotes stands for. -/
def plain (cs : List Char) : Data :=
  let trimmed := Text.trimChars cs
  let fraction := if trimmed.contains '.' then fraction? trimmed else none
  match fraction with
  | some value => value
  | none =>
    match whole? trimmed with
    | some n => .whole n
    | none => .text (String.ofList trimmed)

/-- The value of a hexadecimal digit. -/
def hexDigit? (c : Char) : Option Nat :=
  if c.isDigit then some (c.toNat - '0'.toNat)
  else if 'a' ≤ c ∧ c ≤ 'f' then some (c.toNat - 'a'.toNat + 10)
  else if 'A' ≤ c ∧ c ≤ 'F' then some (c.toNat - 'A'.toNat + 10)
  else none

/-- The character that hexadecimal digits stand for. -/
def hexChar? (cs : List Char) : Option Char := do
  let digits ← cs.mapM hexDigit?
  let n := digits.foldl (fun n d => 16 * n + d) 0
  if n.isValidChar then some (Char.ofNat n) else none

/-- The characters of a quoted text up to its closing quote, and what follows the quote. -/
def quoted? : List Char → Option (List Char × List Char)
  | [] => none
  | '"' :: rest => some ([], rest)
  | '\\' :: 'u' :: a :: b :: c :: d :: rest => do
    let image ← hexChar? [a, b, c, d]
    let (body, after) ← quoted? rest
    pure (image :: body, after)
  | '\\' :: 'U' :: a :: b :: c :: d :: e :: f :: g :: h :: rest => do
    let image ← hexChar? [a, b, c, d, e, f, g, h]
    let (body, after) ← quoted? rest
    pure (image :: body, after)
  | '\\' :: mark :: rest => do
    let image ← [('b', '\x08'), ('t', '\t'), ('n', '\n'), ('f', '\x0c'), ('r', '\r'), ('"', '"'),
      ('\\', '\\')].lookup mark
    let (body, after) ← quoted? rest
    pure (image :: body, after)
  | '\\' :: [] => none
  | c :: rest => do
    let (body, after) ← quoted? rest
    pure (c :: body, after)

/-- A key of a table, and what follows it. -/
def key? (cs : List Char) : Option (String × List Char) :=
  match cs with
  | '"' :: rest => (quoted? rest).map fun (body, after) => (String.ofList body, after)
  | cs =>
    let name := cs.takeWhile isKeyChar
    if name.isEmpty then none else some (String.ofList name, cs.dropWhile isKeyChar)

mutual

/-- A value with white space around it, and what follows. `fuel` bounds the number of steps. -/
def value? (fuel : Nat) (cs : List Char) : Option (Data × List Char) :=
  match fuel with
  | 0 => none
  | fuel + 1 =>
    let start := cs.dropWhile isSpace
    let found : Option (Data × List Char) :=
      match Text.after? "true".toList start, Text.after? "false".toList start with
      | some rest, _ => some (.bool true, rest)
      | none, some rest => some (.bool false, rest)
      | none, none =>
        match start with
        | '\x7b' :: rest =>
          (entries? fuel rest).map fun (entries, after) => (.table entries, after)
        | '[' :: rest => (items? fuel rest).map fun (items, after) => (.list items, after)
        | '"' :: rest =>
          (quoted? rest).map fun (body, after) => (.text (String.ofList body), after)
        | '\'' :: rest =>
          match rest with
          | c :: '\'' :: after => some (.text (String.singleton c), after)
          | _ => none
        | start => some (plain (start.takeWhile isPlain), start.dropWhile isPlain)
    found.map fun (value, rest) => (value, rest.dropWhile isSpace)

/-- The items of a list up to its closing bracket. A comma may follow the last one. -/
def items? (fuel : Nat) (cs : List Char) : Option (List Data × List Char) :=
  match fuel with
  | 0 => none
  | fuel + 1 =>
    match cs with
    | ']' :: rest => some ([], rest)
    | cs => do
      let (item, rest) ← value? fuel cs
      match rest with
      | ',' :: rest =>
        let (items, after) ← items? fuel rest
        pure (item :: items, after)
      | ']' :: after => pure ([item], after)
      | _ => none

/-- The entries of a table up to its closing brace. A comma may follow the last one. -/
def entries? (fuel : Nat) (cs : List Char) : Option (List (String × Data) × List Char) :=
  match fuel with
  | 0 => none
  | fuel + 1 =>
    match cs with
    | '\x7d' :: rest => some ([], rest)
    | cs => do
      let (key, rest) ← key? (cs.dropWhile isSpace)
      match rest.dropWhile isSpace with
      | '=' :: rest =>
        let (value, rest) ← value? fuel rest
        match rest with
        | ',' :: rest =>
          let (entries, after) ← entries? fuel rest
          pure (if entries.any (·.1 == key) then (entries, after)
            else ((key, value) :: entries, after))
        | '\x7d' :: after => pure ([(key, value)], after)
        | _ => none
      | _ => none

end

/-- The value that a text stands for. -/
def read (text : String) : Data :=
  match value? (2 * text.length + 2) text.toList with
  | some (value, []) => value
  | _ => .text text

end ValueText

namespace Environment

/-- What the names of the tool's variables start with, in any case. -/
def word : String := "sweepi_"

/-- The pieces of a name between double underscores; a single point divides as well. -/
def pieces : List Char → List (List Char)
  | [] => [[]]
  | '_' :: '_' :: rest => [] :: pieces rest
  | '.' :: rest => [] :: pieces rest
  | c :: rest =>
    match pieces rest with
    | [] => [[c]]
    | piece :: others => (c :: piece) :: others

/-- The path of the value that a variable sets. A name with an empty piece sets nothing. -/
def path? (name : String) : Option (List String) := do
  let rest ← Text.stripStart? (Text.asciiLower (Text.trim name)) word
  let path := (pieces (Text.trim rest).toList).map String.ofList
  if path.contains "" then none else some path

/-- A table that holds a value at a path. -/
def nested (value : Data) : List String → Data
  | [] => value
  | key :: path => .table [(key, nested value path)]

/-- Everything that variables set; later variables go over earlier ones. -/
def toData (assignments : List (String × String)) : Data :=
  assignments.foldl (fun data (name, text) =>
    match path? name with
    | some path => data.merge (nested (ValueText.read text) path)
    | none => data) (.table [])

end Environment

end TsxLint
