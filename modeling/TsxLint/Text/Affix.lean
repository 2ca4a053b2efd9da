/-!
# Beginnings, ends and pieces of a text

Tests and cuts at either end of a text, and the pieces between separators. Each is stated on lists
of characters, with a version on strings beside it.
-/

namespace TsxLint.Text

/-- What follows `start` in `cs`, if `cs` begins with it. -/
def after? : List Char → List Char → Option (List Char)
  | [], cs => some cs
  | _ :: _, [] => none
  | a :: start, c :: cs => if a = c then after? start cs else none

/-- Whether `s` begins with `start`. -/
def startsWith (s start : String) : Bool := (after? start.toList s.toList).isSome

/-- Whether `s` ends with `tail`. -/
def endsWith (s tail : String) : Bool := (after? tail.toList.reverse s.toList.reverse).isSome

/-- What follows `start` in `s`, if `s` begins with it. -/
def stripStart? (s start : String) : Option String :=
  (after? start.toList s.toList).map String.ofList

/-- What precedes `tail` in `s`, if `s` ends with it. -/
def stripEnd? (s tail : String) : Option String :=
  (after? tail.toList.reverse s.toList.reverse).map fun rest => String.ofList rest.reverse

/-- The pieces between the separators of `cs`; there is one more than there are separators. -/
def pieces (isSeparator : Char → Bool) : List Char → List (List Char)
  | [] => [[]]
  | c :: cs =>
    if isSeparator c then [] :: pieces isSeparator cs
    else
      match pieces isSeparator cs with
      | [] => [[c]]
      | piece :: rest => (c :: piece) :: rest

/-- The pieces of `s` between the characters that separate it. -/
def splitWhere (isSeparator : Char → Bool) (s : String) : List String :=
  (pieces isSeparator s.toList).map String.ofList

/-- The pieces of `s` between occurrences of a character. -/
def splitAt (separator : Char) (s : String) : List String := splitWhere (· == separator) s

/-- The characters before and after the first occurrence of `sub`. -/
def cutAt? (sub : List Char) : List Char → Option (List Char × List Char)
  | [] => if sub = [] then some ([], []) else none
  | c :: cs =>
    match after? sub (c :: cs) with
    | some rest => some ([], rest)
    | none => (cutAt? sub cs).map fun (before, rest) => (c :: before, rest)

/-- Whether `sub` occurs in `s`. -/
def contains (s sub : String) : Bool := (cutAt? sub.toList s.toList).isSome

/-- Texts with a separator between each two. -/
def joinWith (separator : String) (parts : List String) : String := separator.intercalate parts

/-- Replaces every occurrence of one character by another. -/
def replaceChar (old new : Char) (s : String) : String :=
  String.ofList (s.toList.map fun c => if c = old then new else c)

/-- The first character of a text. -/
def first? (s : String) : Option Char := s.toList.head?

/-- Whether a character is a letter or digit of ASCII. -/
def isAsciiAlphanumeric (c : Char) : Bool := c.isAlpha || c.isDigit

end TsxLint.Text
