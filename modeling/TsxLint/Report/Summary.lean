import TsxLint.Linter

/-!
# Totals of a run
-/

namespace TsxLint

/-- How much was found in a run. -/
structure Summary where
  errors : Nat
  warnings : Nat
  deriving DecidableEq, Repr

namespace Summary

/-- The totals of some reports. -/
def ofReports (reports : List FileReport) : Summary where
  errors := reports.foldr (fun report n => report.errors + n) 0
  warnings := reports.foldr (fun report n => report.warnings + n) 0

/-- The number of errors and warnings together. -/
def problems (summary : Summary) : Nat := summary.errors + summary.warnings

/-- A count with its noun. -/
def counted (count : Nat) (noun : String) : String :=
  if count = 1 then toString count ++ " " ++ noun else toString count ++ " " ++ noun ++ "s"

/-- The line that tells the totals. -/
def text (summary : Summary) : String :=
  "✖ " ++ counted summary.problems "problem" ++ " (" ++ counted summary.errors "error" ++ ", " ++
    counted summary.warnings "warning" ++ ")"

end Summary

end TsxLint
