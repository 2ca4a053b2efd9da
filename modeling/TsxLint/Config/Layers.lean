import TsxLint.Config.Environment
import TsxLint.Config.Settings

/-!
# Layers of configuration

A configuration is merged from layers: the built-in defaults, the file of the toolchain, the file of
the project, and the environment. A higher layer goes over a lower one.
-/

namespace TsxLint

/-- The layers over the defaults, from the lowest to the highest. A file that does not exist adds
nothing. -/
structure ConfigLayers where
  toolchain : Option Data := none
  project : Option Data := none
  environment : List (String × String) := []

namespace ConfigLayers

/-- A list of texts as plain data. -/
def textList (texts : List String) : Data := .list (texts.map Data.text)

/-- The built-in defaults as plain data. -/
def defaults : Data :=
  let lint : LintConfig := {}
  .table
    [("lint", .table
      [("presets", textList lint.presets), ("files", textList lint.files),
        ("ignores", textList lint.ignores)]),
      ("rules", .table []), ("toolchain", .table [])]

/-- A layer over the layers below it. -/
def withLayer (base : Data) : Option Data → Data
  | some layer => base.merge layer
  | none => base

/-- All layers merged. -/
def merged (layers : ConfigLayers) : Data :=
  (withLayer (withLayer defaults layers.toolchain) layers.project).merge
    (Environment.toData layers.environment)

/-- Where the toolchain lives, as far as the project and the environment say. The file of the
toolchain is found with this, so it has no say. -/
def toolchainDir? (layers : ConfigLayers) : Except ConfigError (Option String) :=
  let visible := (withLayer defaults layers.project).merge (Environment.toData layers.environment)
  match (visible.get? "toolchain").bind Config.toolchainOfData? with
  | some dir => .ok dir
  | none => .error .unreadable

/-- The configuration that the layers give. -/
def load (layers : ConfigLayers) : Except ConfigError Config := do
  let _ ← layers.toolchainDir?
  match Config.ofData? layers.merged with
  | some config => .ok config.normalized
  | none => .error .unreadable

end ConfigLayers

end TsxLint
