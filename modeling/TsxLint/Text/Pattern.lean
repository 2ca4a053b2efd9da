import TsxLint.Text.Affix

/-!
# Patterns

The part of the pattern language that name globs are written in: characters, characters quoted by a
backslash, `.*` for any run of characters within one line, and the two ends of a text. A pattern is
looked for anywhere in a text.

## Main definitions

* `Text.quote`: a text in which every character stands for itself.
* `Pattern.read?`: the parts of a pattern.
* `Pattern.occursIn`: whether a pattern is found in a text.
-/

namespace TsxLint

namespace Text

/-- The characters that mean something in a pattern. -/
def signs : List Char :=
  ['\\', '.', '+', '*', '?', '(', ')', '|', '[', ']', '\x7b', '\x7d', '^', '$', '#', '&', '-', '~']

/-- A character, with a backslash before it if it means something in a pattern. -/
def quoteChar (c : Char) : List Char := if signs.contains c then ['\\', c] else [c]

/-- A text in which every character stands for itself. -/
def quote (s : String) : String := String.ofList (s.toList.flatMap quoteChar)

end Text

/-- A part of a pattern. -/
inductive PatternPart
  | start
  | stop
  | anyRun
  | char (c : Char)
  deriving DecidableEq, Repr

/-- A pattern, as its parts in order. -/
structure Pattern where
  parts : List PatternPart
  deriving DecidableEq, Repr

namespace Pattern

/-- Reads the parts of a pattern; signs that stand otherwise have no reading here. -/
def readParts? : List Char → Option (List PatternPart)
  | [] => some []
  | '\\' :: c :: cs => if Text.signs.contains c then (readParts? cs).map (.char c :: ·) else none
  | '.' :: '*' :: cs => (readParts? cs).map (.anyRun :: ·)
  | '^' :: cs => (readParts? cs).map (.start :: ·)
  | '$' :: cs => (readParts? cs).map (.stop :: ·)
  | c :: cs => if Text.signs.contains c then none else (readParts? cs).map (.char c :: ·)

/-- Reads a pattern. -/
def read? (s : String) : Option Pattern := (readParts? s.toList).map Pattern.mk

/-- What may be left of a text after a run within one line: the text, and what follows each further
character up to the first line feed. -/
def restsOfLine : List Char → List (List Char)
  | [] => [[]]
  | c :: cs => if c = '\n' then [c :: cs] else (c :: cs) :: restsOfLine cs

/-- Whether the parts of a pattern match from here on, at the start of a text or further on. -/
def matchesAt : Bool → List PatternPart → List Char → Bool
  | _, [], _ => true
  | isStart, .start :: parts, cs => isStart && matchesAt isStart parts cs
  | isStart, .stop :: parts, cs => cs.isEmpty && matchesAt isStart parts cs
  | isStart, .anyRun :: parts, cs =>
    (restsOfLine cs).any fun rest => matchesAt (isStart && rest.length == cs.length) parts rest
  | _, .char _ :: _, [] => false
  | _, .char c :: parts, d :: cs => c == d && matchesAt false parts cs

/-- Whether the parts of a pattern match somewhere from here on. -/
def matchesSomewhere (isStart : Bool) (parts : List PatternPart) : List Char → Bool
  | [] => matchesAt isStart parts []
  | c :: cs => matchesAt isStart parts (c :: cs) || matchesSomewhere false parts cs

/-- Whether a pattern is found in a text. -/
def occursIn (p : Pattern) (s : String) : Bool := matchesSomewhere true p.parts s.toList

end Pattern

end TsxLint
