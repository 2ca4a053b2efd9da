import TsxLint.Text.Span

/-!
# Lines and columns

A `LineIndex` holds the byte offset at which each line of a source starts. The line of an offset is
searched among these starts; its column is the number of characters between the start of the line
and the offset. Both are counted from one. An offset past the end has the position of the end, and
an offset inside a character has column one. Starts, lines and columns have 32 bits: what does not
fit is cut off at the largest number.

## Main definitions

* `LineIndex.ofSource`: the index of a source.
* `LineIndex.search`: where an offset stands among sorted starts.
* `LineIndex.position`: the line and the column of an offset.
-/

namespace TsxLint

/-- A line and a column, both counted from one. -/
structure Position where
  line : Nat
  column : Nat
  deriving DecidableEq, Repr, Inhabited

/-- A number cut off at the largest one of 32 bits. -/
def capped (n : Nat) : Nat := min n 4294967295

/-- Where each line of a source starts. -/
structure LineIndex where
  starts : List Nat
  deriving DecidableEq, Repr

namespace LineIndex

/-- The offsets after each line feed of `cs`, which itself starts at `offset`. -/
def startsAfter (offset : Nat) : List Char → List Nat
  | [] => []
  | c :: cs =>
    if c = '\n' then capped (offset + c.utf8Size) :: startsAfter (offset + c.utf8Size) cs
    else startsAfter (offset + c.utf8Size) cs

/-- The index of a source. -/
def ofSource (source : String) : LineIndex := ⟨0 :: startsAfter 0 source.toList⟩

/-- The number of lines; a line feed at the very end opens one more. -/
def lineCount (index : LineIndex) : Nat := index.starts.length

/-- Where an offset stands in a sorted list, or else where it would have to be inserted. -/
def search (starts : List Nat) (offset : Nat) : Except Nat Nat :=
  let below := (starts.takeWhile (· < offset)).length
  if starts[below]? = some offset then .ok below else .error below

/-- The place of the line of an offset among the lines, counted from zero. -/
def lineAt (index : LineIndex) (offset : Nat) : Nat :=
  match search index.starts offset with
  | .ok exact => exact
  | .error insertion => insertion - 1

/-- The position of an offset. -/
def position (index : LineIndex) (source : String) (offset : Nat) : Position :=
  let line := index.lineAt offset
  let lineStart := index.starts.getD line 0
  let stop := min offset source.utf8ByteSize
  let column := ((Text.slice? source.toList lineStart stop).getD []).length
  ⟨capped (line + 1), capped (column + 1)⟩

end LineIndex

end TsxLint
