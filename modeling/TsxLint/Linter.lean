import TsxLint.Config.Settings
import TsxLint.Rule.Registry

/-!
# Linting

A configuration chooses rules: presets first, then the overrides of single rules. Every chosen rule
reads its options once. Linting a file runs the chosen checks and puts their findings, rendered and
located, into one list in the order of position, rule and text. A file that cannot be read has one
fatal message instead.

## Main definitions

* `Linter.settings`, `Linter.ofConfig`: the rules that a configuration chooses.
* `LintMessage`, `FileReport`: what is said about a file.
* `Linter.lint`, `Linter.report`: linting a file.
-/

namespace TsxLint

/-- What is said at one place of a file. A fatal message belongs to no rule. -/
structure LintMessage where
  rule : Option String
  severity : Severity
  messageId : Option String
  message : String
  start : Position
  stop : Position
  isFatal : Bool
  deriving DecidableEq, Repr

namespace LintMessage

/-- The message about a file that cannot be linted. -/
def fatal (message : String) (position : Position) : LintMessage :=
  ⟨none, .error, none, message, position, position, true⟩

/-- Whether the first of two messages may stand before the second: by line, column, rule and
text. -/
def le (a b : LintMessage) : Bool :=
  let ruleA := a.rule.getD ""
  let ruleB := b.rule.getD ""
  if a.start.line != b.start.line then a.start.line < b.start.line
  else if a.start.column != b.start.column then a.start.column < b.start.column
  else if ruleA != ruleB then ruleA < ruleB
  else !(b.message < a.message)

end LintMessage

/-- What is said about a file. -/
structure FileReport where
  path : String
  messages : List LintMessage
  deriving DecidableEq, Repr

namespace FileReport

/-- The number of messages of a severity. -/
def count (report : FileReport) (severity : Severity) : Nat :=
  (report.messages.filter (·.severity == severity)).length

/-- The number of errors. -/
def errors (report : FileReport) : Nat := report.count .error

/-- The number of warnings. -/
def warnings (report : FileReport) : Nat := report.count .warn

/-- Whether nothing is said. -/
def isClean (report : FileReport) : Bool := report.messages.isEmpty

end FileReport

/-- A rule that was chosen, with its options settled. -/
structure ActiveRule where
  rule : Rule
  severity : Severity
  check : Check

/-- The chosen rules. -/
structure Linter where
  rules : List ActiveRule

namespace Linter

/-- The level and the options of a rule. -/
abbrev Setting := Severity × Option Data

/-- The settings that presets give, later ones replacing earlier ones. -/
def presetSettings (presets : List String) : Except ConfigError (List (String × Setting)) :=
  presets.foldlM (fun settings name =>
    match Preset.find? name with
    | none => .error (.unknownPreset name)
    | some rules =>
      .ok (rules.foldl (fun settings r => setEntry settings r.name (r.level, r.options))
        settings)) []

/-- The setting of a rule with an override on top. -/
def Setting.override (setting : Setting) (override : RuleSetting) : Setting :=
  (override.level?.getD setting.1, override.options?.or setting.2)

/-- Settings with the overrides of single rules on top. A rule that has no setting is off. -/
def overrideSettings (settings : List (String × Setting)) (rules : List (String × RuleSetting)) :
    Except ConfigError (List (String × Setting)) :=
  rules.foldlM (fun settings (name, override) =>
    match Rule.find? name with
    | none => .error (.unknownRule name)
    | some rule =>
      let current : Setting := (settings.lookup rule.name).getD (.off, none)
      .ok (setEntry settings rule.name (Setting.override current override))) settings

/-- The settings of all rules that a configuration mentions. -/
def settings (config : Config) : Except ConfigError (List (String × Setting)) := do
  overrideSettings (← presetSettings config.lint.presets) config.rules

/-- A rule, if its setting chooses it. -/
def activate? (settings : List (String × Setting)) (rule : Rule) :
    Except ConfigError (Option ActiveRule) :=
  match settings.lookup rule.name with
  | none => .ok none
  | some (severity, options) =>
    if severity.isEnabled then
      match rule.configure (options.getD .null) with
      | some check => .ok (some ⟨rule, severity, check⟩)
      | none => .error (.invalidOptions rule.name)
    else .ok none

/-- The rules that a configuration chooses, in the order in which rules run. -/
def ofConfig (config : Config) : Except ConfigError Linter := do
  let settings ← settings config
  let active ← Rule.all.mapM (activate? settings)
  pure ⟨active.filterMap id⟩

/-- The names of the chosen rules. -/
def ruleNames (linter : Linter) : List String := linter.rules.map (·.rule.name)

/-- A finding, rendered and located. -/
def message (active : ActiveRule) (file : SourceFile) (d : Diagnostic) : LintMessage where
  rule := some active.rule.name
  severity := active.severity
  messageId := some d.id
  message := active.rule.render d
  start := file.lines.position file.source d.span.start
  stop := file.lines.position file.source d.span.stop
  isFatal := false

/-- The messages of one rule about a file. -/
def messagesOf (file : SourceFile) (subject : Subject) (active : ActiveRule) : List LintMessage :=
  (active.check subject).map (message active file)

/-- The messages of all chosen rules about a file, in order. -/
def lint (linter : Linter) (types : Option TypeService) (file : SourceFile) : List LintMessage :=
  (linter.rules.flatMap (messagesOf file (Subject.ofFile file types))).mergeSort LintMessage.le

/-- The position of a file that cannot be read. -/
def errorPosition : SourceError → Position
  | .unexpectedToken _ position => position
  | .unsupportedExtension _ => ⟨1, 1⟩

/-- What is said about a file, read or not. -/
def report (linter : Linter) (path : String) (types : Option TypeService) :
    Except SourceError SourceFile → FileReport
  | .ok file => ⟨path, linter.lint types file⟩
  | .error e => ⟨path, [.fatal e.message (errorPosition e)]⟩

end Linter

end TsxLint
