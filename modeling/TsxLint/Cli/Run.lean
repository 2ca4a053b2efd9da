import TsxLint.Cli.Arguments
import TsxLint.Config.Layers
import TsxLint.Files.Filter
import TsxLint.Files.Walk
import TsxLint.Toolchain.Setup

/-!
# Runs

A run finds the project and the toolchain, loads the configuration, selects files and lints them. It
stops at the first of these steps that fails, and has no result if no file is selected.

## Main definitions

* `Workspace`: what a run finds around it.
* `RunError`: why a run stops.
* `Workspace.run`: a run.
-/

namespace TsxLint

/-- What a run finds around it: the disk, the directory in which it was started, the variables of the
environment, the directory of the user, and the paths in the project that have changed. -/
structure Workspace where
  disk : Disk
  current : String
  environment : List (String × String) := []
  home : Option String := none
  changed : List String := []

/-- Why a run stops. -/
inductive RunError
  | noProject (path : String)
  | noHome
  | noToolchain (directory : String)
  | filter (cause : FilterError)
  | config (cause : ConfigError)

/-- The text of the error. -/
def RunError.message : RunError → String
  | noProject path => "Project directory does not exist: " ++ path
  | noHome => "could not determine the home directory; set SWEEPI_TOOLCHAIN__DIR"
  | noToolchain directory =>
    "Sweepi toolchain is not initialized in " ++ directory ++ ". Run \"sweepi init\" first."
  | filter cause => cause.message
  | config cause => cause.message

/-- What a run found: the project and what is said about each selected file. -/
structure RunResult where
  project : String
  reports : List FileReport
  deriving DecidableEq, Repr

/-- What is said about a file that cannot be read. -/
def ReadFailure.report (path : String) (failure : ReadFailure) : FileReport :=
  ⟨path, [.fatal ("Failed to read file: " ++ failure.message) ⟨1, 1⟩]⟩

/-- What a linter says about the file that a path leads to. -/
def Linter.reportOn (linter : Linter) (disk : Disk) (path : String) : FileReport :=
  match disk.read path with
  | .error failure => failure.report path
  | .ok contents => linter.report path none (SourceFile.read path contents.text contents.tree)

namespace Workspace

/-- The path of the project. -/
def projectPath (w : Workspace) (directory : String) : String :=
  Path.tidy (Path.join w.current directory)

/-- The project, if there is a directory for it. -/
def project (w : Workspace) (directory : String) : Except RunError String :=
  let path := w.projectPath directory
  if (w.disk.directory? path).isSome then .ok path else .error (.noProject path)

/-- The layers of configuration that are known without the toolchain. -/
def projectLayers (w : Workspace) (project : String) : ConfigLayers where
  project := w.disk.settings? (Path.join project ".sweepi.toml")
  environment := w.environment

/-- Where the toolchain lives. -/
def toolchainDirectory (w : Workspace) (project : String) : Except RunError String :=
  match (w.projectLayers project).toolchainDir? with
  | .error e => .error (.config e)
  | .ok (some directory) => .ok directory
  | .ok none =>
    match w.home with
    | some home => .ok (Path.join home ".sweepi")
    | none => .error .noHome

/-- The directory of a toolchain that has been set up. -/
def toolchain (w : Workspace) (project : String) : Except RunError String := do
  let directory ← w.toolchainDirectory project
  if Toolchain.isSetUp w.disk directory then .ok directory else .error (.noToolchain directory)

/-- All layers of configuration. -/
def layers (w : Workspace) (project toolchain : String) : ConfigLayers :=
  { w.projectLayers project with
    toolchain := w.disk.settings? (Toolchain.configPath toolchain) }

/-- The files of the project that a walk reaches and a filter lets through. -/
def allFiles (w : Workspace) (project : String) (filter : FileFilter) : List String :=
  let names := w.disk.walk ((w.disk.directory? project).getD [])
  (names.filter fun file => filter.admits (Text.joinWith "/" file)).map fun file =>
    file.foldl Path.join project

/-- The paths of the files that a run is about. -/
def selected (w : Workspace) (project : String) (filter : FileFilter) : Selection → List String
  | .all => w.allFiles project filter
  | .changed => filter.retain project (w.changed.map (Path.join project))
  | .files paths => filter.retain project (paths.map (Path.join project))

/-- An outcome with its error seen as an error of the run. -/
def orStop {ε α : Type} (stop : ε → RunError) : Except ε α → Except RunError α
  | .ok a => .ok a
  | .error e => .error (stop e)

/-- Lints the selected files of the project in a directory. -/
def run (w : Workspace) (directory : String) (selection : Selection) :
    Except RunError (Option RunResult) := do
  let project ← w.project directory
  let toolchain ← w.toolchain project
  let config ← orStop .config (w.layers project toolchain).load
  let filter ← orStop .filter (FileFilter.ofConfig config.lint)
  match w.selected project filter selection with
  | [] => .ok none
  | paths =>
    let linter ← orStop .config (Linter.ofConfig config)
    .ok (some ⟨project, paths.map (linter.reportOn w.disk)⟩)

end Workspace

end TsxLint
