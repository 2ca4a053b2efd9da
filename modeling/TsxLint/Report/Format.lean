import TsxLint.Data.Json
import TsxLint.Report.Stylish

/-!
# Formats of reports

A report is written as text for people, or as JSON with every file and every message. Parts that say
nothing are left out of the JSON: the kind of a fatal message, and that a message is not fatal.
-/

namespace TsxLint

/-- How a report is written. -/
inductive ReportFormat
  | stylish
  | json
  deriving DecidableEq, Repr

namespace ReportFormat

/-- The word for a format. -/
def name : ReportFormat → String
  | stylish => "stylish"
  | json => "json"

/-- The format that a word stands for. -/
def ofName? : String → Option ReportFormat
  | "stylish" => some stylish
  | "json" => some json
  | _ => none

end ReportFormat

/-- A message as plain data. -/
def LintMessage.toData (m : LintMessage) : Data :=
  .table
    ([("rule", (m.rule.map Data.text).getD .null), ("severity", .text m.severity.name)] ++
      (m.messageId.map fun id => ("messageId", Data.text id)).toList ++
      [("message", .text m.message), ("line", .whole m.start.line),
        ("column", .whole m.start.column), ("endLine", .whole m.stop.line),
        ("endColumn", .whole m.stop.column)] ++
      if m.isFatal then [("fatal", .bool true)] else [])

/-- What is said about a file, as plain data. -/
def FileReport.toData (report : FileReport) : Data :=
  .table [("path", .text report.path), ("messages", .list (report.messages.map LintMessage.toData))]

/-- The text of some reports in a format; JSON has one for all reports. -/
def ReportFormat.render? (project : String) (reports : List FileReport) :
    ReportFormat → Option String
  | .stylish => Stylish.render? project reports
  | .json => some (Data.list (reports.map FileReport.toData)).json

end TsxLint
