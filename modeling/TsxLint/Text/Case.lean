import TsxLint.Text.CaseTable

/-!
# Changing letter case

Upper- and lower-case forms of characters and strings after the full Unicode mappings: the other
case of a character is a list of characters, because some letters expand (`ß` becomes `SS`).
Lowering a string looks at one context rule only: a capital sigma at the end of a word becomes the
final form `ς`.

## Main definitions

* `upperChar`, `lowerChar`: the other case of one character.
* `capitalize`, `lowerFirst`: the first character of a text in the other case.
* `lower`: a whole text in lower case; `asciiLower` touches the letters `A` to `Z` only.
-/

namespace TsxLint.Text

private def caseImage (runs : List CaseRun) (special : List (Nat × List Nat)) (c : Char) :
    List Char :=
  match special.lookup c.toNat with
  | some images => images.map Char.ofNat
  | none => [((runs.findSome? (·.map? c.toNat)).map Char.ofNat).getD c]

/-- The upper-case form of a character. -/
def upperChar (c : Char) : List Char := caseImage upperRuns upperSpecial c

/-- The lower-case form of a character, its context aside. -/
def lowerChar (c : Char) : List Char := caseImage lowerRuns lowerSpecial c

/-- Whether the nearest character that is not skipped is a cased letter. -/
def nextIsCased (cs : List Char) : Bool :=
  match cs.dropWhile fun c => inRanges caseIgnorableRanges c.toNat with
  | [] => false
  | c :: _ => inRanges casedRanges c.toNat

/-- Lower case of the characters that follow `before`, which is read backwards. -/
def lowerFrom (before : List Char) : List Char → List Char
  | [] => []
  | c :: rest =>
    let image :=
      if c = 'Σ' then
        if nextIsCased before && !nextIsCased rest then ['ς'] else ['σ']
      else lowerChar c
    image ++ lowerFrom (c :: before) rest

/-- A text in lower case. -/
def lower (s : String) : String := String.ofList (lowerFrom [] s.toList)

/-- A text with its first character in upper case. -/
def capitalize (s : String) : String :=
  match s.toList with
  | [] => ""
  | c :: rest => String.ofList (upperChar c ++ rest)

/-- A text with its first character in lower case. -/
def lowerFirst (s : String) : String :=
  match s.toList with
  | [] => ""
  | c :: rest => String.ofList (lowerChar c ++ rest)

/-- A text with the letters `A` to `Z` lowered and all others kept. -/
def asciiLower (s : String) : String := String.ofList (s.toList.map Char.toLower)

end TsxLint.Text
