import TsxLint.Config.Layers
import TsxLint.Data.Json
import TsxLint.Files.Disk

/-!
# Setting up the toolchain

The toolchain lives in a directory with a configuration and a package manifest. Setting it up writes
those of the two files that are not there, and then installs a skill. Forced, it starts from an
empty directory. It stops at the first step that fails, and what the steps before it did stays done.

## Main definitions

* `Toolchain.template`, `Toolchain.manifest`: the texts of the two files.
* `Toolchain.Faults`: where the host may fail, each failure with what it leaves behind.
* `Toolchain.provide`: a file that is written unless something has its path.
* `Toolchain.setUpWith`, `Toolchain.setUp`: what setting up does to the disk, and what it says.
-/

namespace TsxLint.Toolchain

/-! ### Files -/

/-- The name of the configuration. -/
def configName : String := "sweepi.toml"

/-- The name of the package manifest. -/
def manifestName : String := "package.json"

/-- A list of texts as an entry, one a line. -/
def listEntry (key : String) (texts : List String) : String :=
  key ++ " = [\n" ++ String.join (texts.map fun t => "    \"" ++ t ++ "\",\n") ++ "]\n"

/-- The configuration that says what the defaults say. -/
def template : Contents :=
  let lint : LintConfig := {}
  { text := "[lint]\n" ++ listEntry "presets" lint.presets ++ listEntry "files" lint.files ++
      listEntry "ignores" lint.ignores
    table := some (.table [("lint", (ConfigLayers.defaults.get? "lint").getD (.table []))]) }

/-- The package manifest. -/
def manifest : Contents :=
  { text := (Data.table
      [("name", .text "sweepi-toolchain"), ("private", .bool true)]).json ++ "\n" }

/-- Where the configuration of a toolchain is. -/
def configPath (directory : String) : String := Path.join directory configName

/-- Where the package manifest of a toolchain is. -/
def manifestPath (directory : String) : String := Path.join directory manifestName

/-- Whether a toolchain has been set up. -/
def isSetUp (disk : Disk) (directory : String) : Bool := disk.hasFile (configPath directory)

/-! ### The installer -/

/-- A command that is run in a directory. -/
structure InstallCall where
  command : String
  arguments : List String
  directory : String
  deriving DecidableEq, Repr

/-- What comes of running a command: how long it took, or how it failed. -/
inductive InstallResult
  | done (duration : String)
  | failed (message : String)
  deriving DecidableEq, Repr

/-- The command that installs the skill. -/
def skillCall (directory : String) : InstallCall where
  command := "npx"
  arguments := ["skills", "add", "jjenzz/sweepi", "--skill", "sweepi", "--global", "--yes"]
  directory := directory

/-! ### Setting up -/

/-- What setting up came to. -/
structure Outcome where
  directory : String
  wroteConfig : Bool
  deriving DecidableEq, Repr

/-- The line that sums up the outcome. -/
def Outcome.summary (outcome : Outcome) : String :=
  if outcome.wroteConfig then "Initialized Sweepi toolchain in " ++ outcome.directory
  else "Sweepi toolchain already initialized in " ++ outcome.directory

/-- Why setting up failed: what was to be done to which path and what the host says about it, or
what the installer says. -/
inductive SetupError
  | removal (directory cause : String)
  | creation (directory cause : String)
  | inspection (path cause : String)
  | writing (path cause : String)
  | installer (message : String)
  deriving DecidableEq, Repr

/-- The text of the error. -/
def SetupError.message : SetupError → String
  | removal directory _ => "failed to remove " ++ directory
  | creation directory _ => "failed to create " ++ directory
  | inspection path _ => "failed to inspect " ++ path
  | writing path _ => "failed to write " ++ path
  | installer message => message

/-- What the host says about it. -/
def SetupError.cause? : SetupError → Option String
  | removal _ cause | creation _ cause | inspection _ cause | writing _ cause => some cause
  | installer _ => none

/-- The text of the error with its cause. -/
def SetupError.chain (e : SetupError) : String :=
  match e.cause? with
  | some cause => e.message ++ ": " ++ cause
  | none => e.message

/-- Where the host fails, each time with a text: by default nowhere. -/
structure Faults where
  /-- The removal of the directory stops, with some entries below it kept. -/
  removal : Option (String × (List String → Bool)) := none
  /-- A directory cannot be made. -/
  creation : List String → Option String := fun _ => none
  /-- A path cannot be looked at. -/
  inspection : String → Option String := fun _ => none
  /-- A file cannot be written as a whole; something of it may be there. -/
  writing : String → Option (String × Option Contents) := fun _ => none

/-- A change to the disk that may stop with an error, the disk being as it was left by then. -/
abbrev Change := ExceptT SetupError (StateM Disk)

namespace Change

/-- A change from what it does to the disk and why it may have stopped. -/
def ofDisk (act : Disk → Disk × Option ChangeFailure) (stopped : String → SetupError) :
    Change Unit := fun disk =>
  match act disk with
  | (after, none) => (.ok (), after)
  | (after, some failure) => (.error (stopped failure.message), after)

end Change

/-- Writes a file unless something has its path, and tells whether it did. -/
def provide (faults : Faults) (path : String) (contents : Contents) : Change Bool := fun disk =>
  match faults.inspection path, disk.find path with
  | some cause, _ => (.error (.inspection path cause), disk)
  | none, .ok _ => (.ok false, disk)
  | none, .error .missing =>
    match faults.writing path with
    | none => (.ok true, disk.write path contents)
    | some (cause, left) =>
      (.error (.writing path cause), (left.map (disk.write path)).getD disk)
  | none, .error failure => (.error (.inspection path failure.message), disk)

/-- Provides the two files, in an empty directory if forced, and tells whether the configuration was
written. -/
def prepare (faults : Faults) (directory : String) (force : Bool) : Change Bool := do
  if force then
    Change.ofDisk (Disk.removeAll faults.removal · directory) (.removal directory)
  Change.ofDisk (Disk.createAll faults.creation · directory) (.creation directory)
  let wroteConfig ← provide faults (configPath directory) template
  let _ ← provide faults (manifestPath directory) manifest
  pure wroteConfig

/-- The disk after setting up, the lines said on the way, the commands run, and the outcome. -/
structure Setup where
  disk : Disk
  status : List String
  calls : List InstallCall
  outcome : Except SetupError Outcome

/-- Sets up the toolchain in a directory of a host that may fail. -/
def setUpWith (faults : Faults) (install : InstallCall → InstallResult) (disk : Disk)
    (directory : String) (force : Bool) : Setup :=
  let removing := if force then ["Removing existing Sweepi toolchain in " ++ directory] else []
  match prepare faults directory force disk with
  | (.error e, after) => ⟨after, removing, [], .error e⟩
  | (.ok wroteConfig, after) =>
    let starting := if wroteConfig then ["Initializing Sweepi toolchain in " ++ directory] else []
    let status := removing ++ starting ++ ["Installing Sweepi LLM skill..."]
    let call := skillCall directory
    match install call with
    | .done duration =>
      ⟨after, status ++ ["Installed Sweepi LLM skill in " ++ duration], [call],
        .ok ⟨directory, wroteConfig⟩⟩
    | .failed message => ⟨after, status, [call], .error (.installer message)⟩

/-- Sets up the toolchain in a directory of a host that does what it is asked. -/
def setUp (install : InstallCall → InstallResult) (disk : Disk) (directory : String)
    (force : Bool) : Setup :=
  setUpWith {} install disk directory force

end TsxLint.Toolchain
