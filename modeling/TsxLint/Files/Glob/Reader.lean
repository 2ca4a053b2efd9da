import TsxLint.Files.Glob.Basic

/-!
# Reading globs

`?` stands for one byte, `*` for any bytes, `[…]` for one byte of a class, and braces hold
alternatives between commas. `**` as a whole component stands for any number of components. A
backslash makes the next character stand for itself.

## Main definitions

* `Glob.readClass`: the ranges of a class.
* `Glob.Reading`: a glob as far as it has been read.
* `Glob.parse?`: the glob that a text stands for.
-/

namespace TsxLint.Glob

/-! ### Classes -/

/-- What reading a class comes to. -/
inductive ClassReading
  | closed (ranges : List (Char × Char)) (rest : List Char)
  | unclosed
  | reversed
  deriving DecidableEq, Repr

/-- Reads a class up to its closing bracket. A bracket or hyphen that comes first stands for itself,
and so does a hyphen before the closing bracket. -/
def readClass (isFirst inRange : Bool) (ranges : List (Char × Char)) : List Char → ClassReading
  | [] => .unclosed
  | c :: rest =>
    if c = ']' && !isFirst then .closed (if inRange then ranges ++ [('-', '-')] else ranges) rest
    else if c = '-' && !isFirst && !inRange then readClass false true ranges rest
    else if inRange then
      match ranges.getLast? with
      | none => .reversed
      | some (low, _) =>
        if c < low then .reversed
        else readClass false false (ranges.dropLast ++ [(low, c)]) rest
    else readClass false false (ranges ++ [(c, c)]) rest

/-- A class takes at least its closing bracket. -/
theorem length_readClass {isFirst inRange : Bool} {ranges found : List (Char × Char)}
    {cs rest : List Char} (h : readClass isFirst inRange ranges cs = .closed found rest) :
    rest.length < cs.length := by
  induction cs generalizing isFirst inRange ranges with
  | nil => cases h
  | cons c cs ih =>
    unfold readClass at h
    rw [List.length_cons]
    split at h
    · cases h
      exact Nat.lt_succ_self _
    · split at h
      · exact Nat.lt_succ_of_lt (ih h)
      · split at h
        · split at h
          · cases h
          · split at h
            · cases h
            · exact Nat.lt_succ_of_lt (ih h)
        · exact Nat.lt_succ_of_lt (ih h)

/-- Whether a class lists what it does not cover. -/
def isNegated : List Char → Bool
  | '!' :: _ => true
  | '^' :: _ => true
  | _ => false

/-! ### Braces and trees -/

/-- A glob as far as it has been read: the tokens of the current branch, the latest first, and for
each open brace the branches before the current one, the latest first, with the tokens before the
brace. -/
structure Reading where
  current : List GlobToken := []
  opened : List (List (List GlobToken) × List GlobToken) := []

namespace Reading

/-- Adds a token to the current branch. -/
def push (r : Reading) (t : GlobToken) : Reading := { r with current := t :: r.current }

/-- Opens a brace. -/
def openBrace (r : Reading) : Reading := ⟨[], ([], r.current) :: r.opened⟩

/-- Starts the next branch of an open brace; outside of braces a comma stands for itself. -/
def comma (r : Reading) : Reading :=
  match r.opened with
  | [] => r.push (.literal ',')
  | (done, before) :: outer => ⟨[], (r.current.reverse :: done, before) :: outer⟩

/-- Closes a brace, if one is open. -/
def closeBrace? (r : Reading) : Option Reading :=
  match r.opened with
  | [] => none
  | (done, before) :: outer =>
    some ⟨.choice (r.current.reverse :: done).reverse :: before, outer⟩

/-- Reads `**` as two stars. -/
def twoStars (r : Reading) : Reading := (r.push .star).push .star

/-- Puts `**` in the place of the separator before it. A `**` after another adds nothing. -/
def pushTree (r : Reading) (t : GlobToken) : Reading :=
  match r.current with
  | .treeStart :: _ => r
  | .treeEnd :: _ => r
  | _ :: rest => { r with current := t :: rest }
  | [] => r

/-- Whether `**` may be a whole component after the given character. -/
def startsComponent (r : Reading) : Option Char → Bool
  | some '/' => true
  | some ',' => !r.opened.isEmpty
  | some '\x7b' => !r.opened.isEmpty
  | _ => false

/-- Reads `**` at the end of a branch, where `previous` is the character before it. -/
def treeAtEnd (r : Reading) (previous : Option Char) : Reading :=
  if r.startsComponent previous then r.pushTree .treeEnd else r.twoStars

/-- Reads `**` before the character `next`. The second part tells whether `next`, a separator,
belongs to the token. -/
def treeBefore (r : Reading) (previous : Option Char) (next : Char) : Reading × Bool :=
  if r.current.isEmpty then
    if next = '/' then (r.push .treeStart, true) else (r.twoStars, false)
  else if next = '/' && r.startsComponent previous then (r.pushTree .treeMiddle, true)
  else if (next = ',' || next = '\x7d') && !r.opened.isEmpty then (r.treeAtEnd previous, false)
  else (r.twoStars, false)

end Reading

/-! ### Texts -/

/-- Reads the characters of a glob after `previous`. -/
def readFrom (style : GlobStyle) (r : Reading) (previous : Option Char) (cs : List Char) :
    Option Reading :=
  match cs with
  | [] => some r
  | ['*', '*'] => if r.current.isEmpty then some (r.push .treeStart) else some (r.treeAtEnd previous)
  | '*' :: '*' :: next :: rest =>
    match r.treeBefore previous next with
    | (read, true) => readFrom style read (some next) rest
    | (read, false) => readFrom style read (some '*') (next :: rest)
  | '*' :: rest => readFrom style (r.push .star) (some '*') rest
  | '?' :: rest => readFrom style (r.push .any) (some '?') rest
  | '[' :: rest =>
    match _h : readClass true false [] (rest.drop (isNegated rest).toNat) with
    | .closed ranges after =>
      readFrom style (r.push (.oneOf (isNegated rest) ranges)) (some ']') after
    | .reversed => none
    | .unclosed =>
      match style with
      | .selection => none
      | .ignoreRule => readFrom style (r.push (.literal '[')) (some '[') rest
  | '\x7b' :: rest => readFrom style r.openBrace (some '\x7b') rest
  | '\x7d' :: rest => r.closeBrace?.bind fun r => readFrom style r (some '\x7d') rest
  | ',' :: rest => readFrom style r.comma (some ',') rest
  | ['\\'] => none
  | '\\' :: c :: rest => readFrom style (r.push (.literal c)) (some c) rest
  | c :: rest => readFrom style (r.push (.literal c)) (some c) rest
termination_by cs.length
decreasing_by
  all_goals simp only [List.length_cons]
  all_goals try omega
  have := length_readClass ‹_›
  simp only [List.length_drop] at this
  omega

/-- The glob that a text stands for, if its braces and classes are well formed. -/
def parse? (style : GlobStyle) (text : String) : Option Glob := do
  let read ← readFrom style {} none text.toList
  if read.opened.isEmpty then some ⟨style, read.current.reverse⟩ else none

end TsxLint.Glob
