import TsxLint.Naming.Case
import TsxLint.Rule.Options
import TsxLint.Severity

/-!
# Settings

What a configuration says: the presets it starts from, the files it selects, and how it overrides
single rules. Settings are read from plain data; a missing part has its default, a part that nothing
reads is ignored, and a part of the wrong kind makes the whole unreadable.

## Main definitions

* `LintConfig`, `RuleSetting`, `Config`: the settings.
* `Config.ofData?`: settings from plain data.
* `Config.normalized`: settings with the names of rules in their one spelling.
-/

namespace TsxLint

/-- The presets that a configuration starts from, and the globs that select files. -/
structure LintConfig where
  presets : List String := ["core", "react"]
  files : List String := ["**/*.ts", "**/*.tsx"]
  ignores : List String :=
    ["**/*.test.*", "**/*.spec.*", "**/node_modules/**", "**/.next/**", "**/dist/**",
      "**/build/**", "**/coverage/**", "**/.turbo/**", "**/out/**"]
  deriving DecidableEq, Repr

/-- How a configuration overrides a rule: by a level, or by a table with parts that may be left
out. -/
inductive RuleSetting
  | bare (level : Severity)
  | parts (level : Option Severity) (options : Option Data)

namespace RuleSetting

/-- The level that a setting gives. -/
def level? : RuleSetting → Option Severity
  | bare level => some level
  | parts level _ => level

/-- The options that a setting gives. -/
def options? : RuleSetting → Option Data
  | bare _ => none
  | parts _ options => options

end RuleSetting

/-- A configuration. Settings of rules stand in the order of their names. -/
structure Config where
  lint : LintConfig := {}
  rules : List (String × RuleSetting) := []
  toolchainDir : Option String := none

/-- Entries in the order of their keys. -/
def byKey {α : Type} (entries : List (String × α)) : List (String × α) :=
  entries.mergeSort fun a b => !(b.1 < a.1)

/-- Sets the value under a key. -/
def setEntry {α : Type} (entries : List (String × α)) (key : String) (value : α) :
    List (String × α) :=
  entries.filter (fun e => e.1 != key) ++ [(key, value)]

/-! ### Reading -/

/-- The parts of a record: a table, whose other keys are ignored, or a list by position. -/
def OptionTable.ofRecord? (keys : List String) : Data → Option OptionTable
  | .table entries => some entries
  | .list items => if items.length ≤ keys.length then some (keys.zip items) else none
  | _ => none

/-- The words for severities. -/
def Severity.words : List (String × Severity) :=
  [("off", .off), ("warn", .warn), ("error", .error)]

namespace LintConfig

/-- Reads the selection of presets and files. -/
def ofData? (data : Data) : Option LintConfig := do
  let table ← OptionTable.ofRecord? ["presets", "files", "ignores"] data
  let default : LintConfig := {}
  let presets ← table.read? "presets" Data.texts? default.presets
  let files ← table.read? "files" Data.texts? default.files
  let ignores ← table.read? "ignores" Data.texts? default.ignores
  pure ⟨presets, files, ignores⟩

end LintConfig

/-- Reads the setting of a rule. -/
def RuleSetting.ofData? (data : Data) : Option RuleSetting :=
  match Data.choice? Severity.words data with
  | some level => some (.bare level)
  | none =>
    match data with
    | .table entries => do
      let table : OptionTable := entries
      let level ← table.read? "level" (Data.optional (Data.choice? Severity.words)) none
      let options ← table.read? "options" (Data.optional some) none
      pure (.parts level options)
    | _ => none

namespace Config

/-- Reads the settings of rules. -/
def rulesOfData? : Data → Option (List (String × RuleSetting))
  | .table entries => do
    let rules ← entries.mapM fun (name, value) =>
      (RuleSetting.ofData? value).map fun setting => (name, setting)
    pure (byKey rules)
  | _ => none

/-- Reads where the toolchain lives, if the data says so. -/
def toolchainOfData? (data : Data) : Option (Option String) := do
  let table ← OptionTable.ofRecord? ["dir"] data
  table.read? "dir" (Data.optional Data.text?) none

/-- Reads a configuration. -/
def ofData? (data : Data) : Option Config := do
  let table ← OptionTable.ofRecord? ["lint", "rules", "toolchain"] data
  let lint ← table.read? "lint" LintConfig.ofData? {}
  let rules ← table.read? "rules" rulesOfData? []
  let toolchainDir ← table.read? "toolchain" toolchainOfData? none
  pure ⟨lint, rules, toolchainDir⟩

/-- The settings of rules with every name in its one spelling. Of several spellings of a name, the
last one in order gives the setting. -/
def normalizeRules (rules : List (String × RuleSetting)) : List (String × RuleSetting) :=
  byKey (rules.foldl
    (fun kept (name, setting) => setEntry kept (Naming.normalizeRuleName name) setting) [])

/-- A configuration with the names of rules in their one spelling. -/
def normalized (config : Config) : Config :=
  { config with rules := normalizeRules config.rules }

end Config

/-- Why a configuration cannot be used. -/
inductive ConfigError
  | unreadable
  | unknownRule (name : String)
  | unknownPreset (name : String)
  | invalidOptions (rule : String)
  deriving DecidableEq, Repr

/-- The text of the error. -/
def ConfigError.message : ConfigError → String
  | unreadable => "Configuration error"
  | unknownRule name => "Unknown rule '" ++ name ++ "' in [rules]"
  | unknownPreset name => "Unknown preset '" ++ name ++ "' (expected \"core\" or \"react\")"
  | invalidOptions rule => "Invalid options for rule '" ++ rule ++ "'"

end TsxLint
