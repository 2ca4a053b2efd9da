import TsxLint.Report.Summary

/-!
# Reports as text

A file with messages has a block: its path, a line for each message, and an empty line. The columns
of a block are padded to the width of their widest entry. The totals follow the last block. Where
nothing was found, nothing is written. Padding counts in 16 bits: a report with a message that is
wider has no text at all.

## Main definitions

* `Stylish.Row`, `Stylish.Widths`: the columns of a message and how wide they are.
* `Stylish.Widths.fit`: whether columns can be padded to their widths.
* `Stylish.lines?`, `Stylish.render?`: the lines of a report, and its text.
-/

namespace TsxLint.Stylish

/-- The columns of a message. -/
structure Row where
  position : String
  severity : String
  message : String
  rule : String
  deriving DecidableEq, Repr

/-- The word for a severity in a row. -/
def severityWord : Severity → String
  | .error => "error"
  | .warn => "warning"
  | .off => "off"

/-- The columns of a message. -/
def Row.ofMessage (m : LintMessage) : Row where
  position := toString m.start.line ++ ":" ++ toString m.start.column
  severity := severityWord m.severity
  message := m.message
  rule := m.rule.getD ""

/-- How wide the columns of a block are. -/
structure Widths where
  position : Nat
  severity : Nat
  message : Nat
  deriving DecidableEq, Repr

/-- The largest number of a list. -/
def largest (sizes : List Nat) : Nat := sizes.foldl max 0

/-- The widths of some rows: the number of bytes of the widest entry of each column. -/
def Widths.ofRows (rows : List Row) : Widths where
  position := largest (rows.map (·.position.utf8ByteSize))
  severity := largest (rows.map (·.severity.utf8ByteSize))
  message := largest (rows.map (·.message.utf8ByteSize))

/-- The largest width that a column can be padded to. -/
def widthLimit : Nat := 65535

/-- Whether the columns of a block can be padded. Only a message can be too wide: places and
severities are short. -/
def Widths.fit (widths : Widths) : Bool := widths.message ≤ widthLimit

/-- A text with blanks after it, up to a number of characters. -/
def padded (width : Nat) (text : String) : String :=
  text ++ String.ofList (List.replicate (width - text.length) ' ')

/-- A text without the white space at its end. -/
def trimEnd (text : String) : String :=
  String.ofList (text.toList.reverse.dropWhile Text.isBlank).reverse

/-- The line of a row. -/
def Row.line (widths : Widths) (row : Row) : String :=
  trimEnd ("  " ++ padded widths.position row.position ++ "  " ++
    padded widths.severity row.severity ++ "  " ++ padded widths.message row.message ++ "  " ++
    row.rule)

/-- The lines about a file, whose path is shown as seen from the project, if its columns can be
padded. -/
def block? (project : String) (report : FileReport) : Option (List String) :=
  let rows := report.messages.map Row.ofMessage
  let widths := Widths.ofRows rows
  if widths.fit then
    some (Path.seenFrom project report.path :: rows.map (Row.line widths) ++ [""])
  else none

/-- The line with the totals, if there are any. -/
def totals (summary : Summary) : List String :=
  if 0 < summary.problems then [summary.text] else []

/-- The lines of a report, if all its blocks can be padded. -/
def lines? (project : String) (reports : List FileReport) : Option (List String) := do
  let blocks ← (reports.filter fun r => !r.isClean).mapM (block? project)
  pure (blocks.flatten ++ totals (Summary.ofReports reports))

/-- The text of some lines: each with a line feed after it. -/
def textOf (lines : List String) : String := String.join (lines.map (· ++ "\n"))

/-- The text of a report, if all its blocks can be padded. -/
def render? (project : String) (reports : List FileReport) : Option String :=
  (lines? project reports).map textOf

end TsxLint.Stylish
