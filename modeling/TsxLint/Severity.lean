import TsxLint.Text.Blank
import TsxLint.Text.Case

/-!
# Severities and rule categories
-/

namespace TsxLint

/-- How strongly a rule's findings count. -/
inductive Severity
  | off
  | warn
  | error
  deriving DecidableEq, Repr, Inhabited

namespace Severity

/-- The word written for a severity. -/
def name : Severity → String
  | off => "off"
  | warn => "warn"
  | error => "error"

/-- Whether a rule at this level runs. -/
def isEnabled : Severity → Bool
  | off => false
  | _ => true

/-- Why a text is no severity. -/
inductive ParseError
  | unknown (text : String)
  deriving DecidableEq, Repr

/-- The text of the error. -/
def ParseError.message : ParseError → String
  | unknown text =>
    "Validation error: unknown severity '" ++ text ++ "' (expected off, warn or error)"

/-- Reads a severity in any case, by word or by number, with white space around it. -/
def parse (text : String) : Except ParseError Severity :=
  match Text.asciiLower (Text.trim text) with
  | "off" | "0" => .ok off
  | "warn" | "warning" | "1" => .ok warn
  | "error" | "2" => .ok error
  | other => .error (.unknown other)

end Severity

/-- The part of a project that a rule is about. -/
inductive Category
  | core
  | react
  deriving DecidableEq, Repr

/-- The word written for a category. -/
def Category.name : Category → String
  | core => "core"
  | react => "react"

end TsxLint
