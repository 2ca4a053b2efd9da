import TsxLint.Text.Affix
import TsxLint.Text.Blank

/-!
# Versions

A version has three numbers, identifiers of a pre-release after a hyphen, and identifiers of a build
after a plus. A number has no leading zero and fits into 64 bits. A pre-release comes before the
version itself; a build does not come before it.

## Main definitions

* `Version.parse?`, `Version.text`: reading and writing versions.
* `Version.check`: the check that a runtime is recent enough.
-/

namespace TsxLint

/-- A version; an empty list of identifiers is one that was not written. -/
structure Version where
  major : Nat
  minor : Nat
  patch : Nat
  preRelease : List String := []
  build : List String := []
  deriving DecidableEq, Repr

namespace Version

/-! ### Reading -/

/-- Whether digits have a leading zero. -/
def hasLeadingZero : List Char → Bool
  | '0' :: _ :: _ => true
  | _ => false

/-- The value of digits. -/
def digitsValue (digits : List Char) : Nat :=
  digits.foldl (fun n c => 10 * n + (c.toNat - '0'.toNat)) 0

/-- Reads a number. -/
def number? (cs : List Char) : Option (Nat × List Char) :=
  let digits := cs.takeWhile Char.isDigit
  if digits.isEmpty || hasLeadingZero digits || UInt64.size ≤ digitsValue digits then none
  else some (digitsValue digits, cs.dropWhile Char.isDigit)

/-- Reads a dot. -/
def dot? : List Char → Option (List Char)
  | '.' :: rest => some rest
  | _ => none

/-- Whether a character belongs to an identifier. -/
def isIdentifierPart (c : Char) : Bool := Text.isAsciiAlphanumeric c || c == '-'

/-- Whether a text is an identifier; in a pre-release a number has no leading zero. -/
def isIdentifier (inPreRelease : Bool) (cs : List Char) : Bool :=
  !cs.isEmpty && !(inPreRelease && cs.all Char.isDigit && hasLeadingZero cs)

/-- Reads identifiers with dots between them. -/
def identifiers? (inPreRelease : Bool) (cs : List Char) : Option (List String × List Char) :=
  let belongs := fun c => isIdentifierPart c || c == '.'
  let found := Text.pieces (· == '.') (cs.takeWhile belongs)
  if found.all (isIdentifier inPreRelease) then
    some (found.map String.ofList, cs.dropWhile belongs)
  else none

/-- Reads identifiers after a mark, if the mark is there. -/
def marked? (mark : Char) (inPreRelease : Bool) (cs : List Char) :
    Option (List String × List Char) :=
  match cs with
  | [] => some ([], [])
  | c :: rest => if c = mark then identifiers? inPreRelease rest else some ([], c :: rest)

/-- The version that a text stands for. -/
def parse? (text : String) : Option Version := do
  let (major, rest) ← number? text.toList
  let (minor, rest) ← number? (← dot? rest)
  let (patch, rest) ← number? (← dot? rest)
  let (preRelease, rest) ← marked? '-' true rest
  let (build, rest) ← marked? '+' false rest
  if rest.isEmpty then some ⟨major, minor, patch, preRelease, build⟩ else none

/-! ### Writing and comparing -/

/-- Identifiers after a mark; none are written without it. -/
def markedText (mark : String) (identifiers : List String) : String :=
  if identifiers.isEmpty then "" else mark ++ Text.joinWith "." identifiers

/-- The text of a version. -/
def text (v : Version) : String :=
  toString v.major ++ "." ++ toString v.minor ++ "." ++ toString v.patch ++
    markedText "-" v.preRelease ++ markedText "+" v.build

/-- Whether a version comes before the release with the given numbers. -/
def isBefore (v : Version) (major minor patch : Nat) : Bool :=
  if v.major != major then v.major < major
  else if v.minor != minor then v.minor < minor
  else if v.patch != patch then v.patch < patch
  else !v.preRelease.isEmpty

/-! ### The runtime of the toolchain -/

/-- Why the runtime is refused. -/
inductive Refusal
  | unreadable (text : String)
  | tooOld (version : Version)
  deriving DecidableEq, Repr

/-- The text of the refusal. -/
def Refusal.message : Refusal → String
  | unreadable text => "could not parse Node.js version \"" ++ text ++ "\""
  | tooOld version => "Sweepi requires Node.js >= 22.13.0. Detected v" ++ version.text ++ "."

/-- Checks the version that the runtime reports, with any number of `v` in front of it. -/
def check (reported : String) : Except Refusal Version :=
  let shown := Text.trim reported
  match parse? (String.ofList (shown.toList.dropWhile (· == 'v'))) with
  | none => .error (.unreadable shown)
  | some version => if version.isBefore 22 13 0 then .error (.tooOld version) else .ok version

end Version

end TsxLint
