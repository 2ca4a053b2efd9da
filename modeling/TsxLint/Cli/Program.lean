import TsxLint.Cli.Run
import TsxLint.Toolchain.Version

/-!
# The program

What the program writes and whether it succeeds, as a function of its arguments and of what it finds
around it. Reports and summaries go to the standard output. Lines on the progress go there as well,
unless the report is JSON, which then has the output to itself; a quiet program leaves them out.

## Main definitions

* `Behaviour`: what is written, and whether the program succeeded.
* `Program.run`: the behaviour of the program.
-/

namespace TsxLint

/-- The lines that a program writes to its two outputs, and whether it succeeded. -/
structure Behaviour where
  output : List String := []
  errorOutput : List String := []
  succeeded : Bool := true
  deriving DecidableEq, Repr

namespace Behaviour

/-- One behaviour after another; the second tells whether all succeeded. -/
def followedBy (a b : Behaviour) : Behaviour :=
  ⟨a.output ++ b.output, a.errorOutput ++ b.errorOutput, b.succeeded⟩

/-- Stopping with an error. -/
def stopped (message : String) : Behaviour where
  errorOutput := ["error: " ++ message]
  succeeded := false

end Behaviour

/-- What the program finds around it, with what the runtime reports as its version, what comes of
running a command, and where the host fails to change the disk. -/
structure Surroundings extends Workspace where
  runtime : String
  install : Toolchain.InstallCall → Toolchain.InstallResult
  faults : Toolchain.Faults := {}

namespace Program

/-- The line about arguments that are not understood. -/
def usage : ArgumentError → String
  | .unknownArgument => "unexpected argument found"
  | .conflict => "an argument cannot be used with another one"
  | .invalidValue => "a value is missing or invalid"
  | .tooManyValues => "a value was given where none is taken"
  | .invalidSubcommand => "unrecognized subcommand"
  | .helpRequested => "Sweepi - structural linting for React/TSX projects"
  | .versionRequested => "sweepi 0.1.0"

/-- Help and version are answers; other errors of arguments make the program fail. -/
def refuse (e : ArgumentError) : Behaviour :=
  match e with
  | .helpRequested => { output := [usage e] }
  | .versionRequested => { output := [usage e] }
  | _ => Behaviour.stopped (usage e)

/-- Lines on the progress. -/
def progress (line : CommandLine) (lines : List String) : Behaviour :=
  if line.quiet then {}
  else
    match line.format with
    | .stylish => { output := lines }
    | .json => { errorOutput := lines }

/-- What is said if there is nothing to lint. -/
def nothingSelected : Selection → String
  | .changed => "No changed files to lint."
  | _ => "No files to lint."

/-- Breaking off where a report has no text. -/
def brokenOff : Behaviour where
  errorOutput := ["Formatting argument out of range"]
  succeeded := false

/-- Writes a report; the program fails if there are errors. -/
def reported (line : CommandLine) (result : RunResult) : Behaviour :=
  match line.format.render? result.project result.reports with
  | none => brokenOff
  | some rendered =>
    let text := Stylish.trimEnd rendered
    { output := if text = "" then [] else [text]
      succeeded := (Summary.ofReports result.reports).errors = 0 }

/-- Lints. -/
def lint (around : Surroundings) (line : CommandLine) : Behaviour :=
  let w := around.toWorkspace
  let found := do
    let project ← w.project line.projectDir
    w.toolchain project
  let using? := match found with
    | .ok directory => progress line ["Using Sweepi toolchain in " ++ directory]
    | .error _ => {}
  using?.followedBy
    (match w.run line.projectDir line.selection with
    | .error e => Behaviour.stopped e.message
    | .ok none => progress line [nothingSelected line.selection]
    | .ok (some result) => reported line result)

/-- Sets up the toolchain, and gives the disk after it. -/
def init (around : Surroundings) (line : CommandLine) (force : Bool) : Behaviour × Disk :=
  let disk := around.toWorkspace.disk
  match Version.check around.runtime with
  | .error refusal => (Behaviour.stopped refusal.message, disk)
  | .ok _ =>
    match around.toWorkspace.toolchainDirectory around.toWorkspace.current with
    | .error e => (Behaviour.stopped e.message, disk)
    | .ok directory =>
      let setup := Toolchain.setUpWith around.faults around.install disk directory force
      let last := match setup.outcome with
        | .ok outcome => ({ output := [outcome.summary] } : Behaviour)
        | .error e => Behaviour.stopped e.chain
      ((progress line setup.status).followedBy last, setup.disk)

/-- The behaviour of the program. -/
def run (around : Surroundings) (arguments : List String) : Behaviour :=
  match CommandLine.parse arguments with
  | .error e => refuse e
  | .ok line =>
    match line.command with
    | .lint => lint around line
    | .init force => (init around line force).1

end Program

end TsxLint
