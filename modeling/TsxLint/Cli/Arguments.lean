import TsxLint.Report.Format
import TsxLint.Text.Affix

/-!
# Command lines

Arguments are read one at a time. An option that takes a value awaits it; the value is looked at only
when the next known argument comes or the arguments end, so an unknown argument is told before a bad
value. Flags may be given once. The word `init`, in first place, asks for the toolchain to be set up,
and `help` for help.

## Main definitions

* `CommandLine`, `ArgumentError`: what a command line asks for, and why it asks for nothing.
* `Argument.ofText`: how an argument is written.
* `CommandLine.Reading.step`: reading one argument.
* `CommandLine.parse`: reading a command line.
-/

namespace TsxLint

/-- The files that a run is about. -/
inductive Selection
  | all
  | changed
  | files (paths : List String)
  deriving DecidableEq, Repr

/-- What is to be done. -/
inductive Command
  | lint
  | init (force : Bool)
  deriving DecidableEq, Repr

/-- What a command line asks for. -/
structure CommandLine where
  command : Command
  projectDir : String
  selection : Selection
  format : ReportFormat
  quiet : Bool
  verbose : Bool
  deriving DecidableEq, Repr

/-- Why a command line is not carried out. -/
inductive ArgumentError
  | unknownArgument
  | conflict
  | invalidValue
  | tooManyValues
  | invalidSubcommand
  | helpRequested
  | versionRequested
  deriving DecidableEq, Repr

/-! ### Arguments as they are written -/

/-- An argument as it is written. -/
inductive Argument
  | endOfOptions
  | long (name : String) (value : Option String)
  | short (letters : List Char)
  | plain (text : String)
  deriving DecidableEq, Repr

/-- The name of a long option and the value that is attached to it. -/
def Argument.ofLong (cs : List Char) : Argument :=
  match Text.cutAt? ['='] cs with
  | some (name, value) => .long (String.ofList name) (some (String.ofList value))
  | none => .long (String.ofList cs) none

/-- How a text is read where options may stand. -/
def Argument.ofText (text : String) : Argument :=
  match text.toList with
  | ['-', '-'] => .endOfOptions
  | '-' :: '-' :: rest => .ofLong rest
  | '-' :: c :: rest => .short (c :: rest)
  | _ => .plain text

/-- The options without a value. -/
inductive Flag
  | all
  | quiet
  | verbose
  | force
  | help
  | version
  deriving DecidableEq, Repr

/-- The name of a flag. -/
def Flag.name : Flag → String
  | all => "all"
  | quiet => "quiet"
  | verbose => "verbose"
  | force => "force"
  | help => "help"
  | version => "version"

/-- The letter of a flag. -/
def Flag.letter? : Flag → Option Char
  | all => none
  | quiet => some 'q'
  | verbose => some 'v'
  | force => some 'f'
  | help => some 'h'
  | version => some 'V'

/-- What takes a value. -/
inductive Slot
  | file
  | format
  | projectDir
  deriving DecidableEq, Repr

/-- The name of the option that takes a value. -/
def Slot.name? : Slot → Option String
  | file => some "file"
  | format => some "format"
  | projectDir => none

/-- The flags and slots that a command has. -/
structure Grammar where
  flags : List Flag
  slots : List Slot

namespace Grammar

/-- The grammar of linting. -/
def lint : Grammar := ⟨[.all, .quiet, .verbose, .help, .version], [.file, .format, .projectDir]⟩

/-- The grammar of setting up the toolchain. -/
def init : Grammar := ⟨[.quiet, .verbose, .force, .help], [.format]⟩

/-- The flag with a name. -/
def flag? (g : Grammar) (name : String) : Option Flag := g.flags.find? (·.name == name)

/-- The flag with a letter. -/
def letter? (g : Grammar) (c : Char) : Option Flag := g.flags.find? (·.letter? == some c)

/-- The slot with a name. -/
def slot? (g : Grammar) (name : String) : Option Slot := g.slots.find? (·.name? == some name)

end Grammar

/-! ### Reading -/

namespace CommandLine

/-- A command line as far as it has been read. The pending slot has its value, if that was read
already, but the value has not been looked at. -/
structure Reading where
  flags : List Flag := []
  files : List String := []
  format : Option ReportFormat := none
  projectDir : Option String := none
  pending : Option (Slot × Option String) := none
  optionsEnded : Bool := false
  deriving DecidableEq, Repr

namespace Reading

/-- Looks at a value and keeps it. A path is not empty, and a format is one of two words and is given
once. -/
def store (r : Reading) (slot : Slot) (value : String) : Except ArgumentError Reading :=
  match slot with
  | .file => if value = "" then .error .invalidValue else .ok { r with files := r.files ++ [value] }
  | .projectDir =>
    if value = "" then .error .invalidValue else .ok { r with projectDir := some value }
  | .format =>
    if r.format.isSome then .error .conflict
    else
      match ReportFormat.ofName? value with
      | some format => .ok { r with format := some format }
      | none => .error .invalidValue

/-- Looks at the pending value. -/
def settle (r : Reading) : Except ArgumentError Reading :=
  match r.pending with
  | none => .ok r
  | some (_, none) => .error .invalidValue
  | some (slot, some value) => { r with pending := none }.store slot value

/-- Reads a flag. -/
def raise (r : Reading) (flag : Flag) : Except ArgumentError Reading := do
  let r ← r.settle
  match flag with
  | .help => .error .helpRequested
  | .version => .error .versionRequested
  | flag => if flag ∈ r.flags then .error .conflict else .ok { r with flags := flag :: r.flags }

/-- Reads a letter. -/
def letter (g : Grammar) (r : Reading) (c : Char) : Except ArgumentError Reading :=
  match g.letter? c with
  | some flag => r.raise flag
  | none => .error .unknownArgument

/-- Reads a long option. -/
def long (g : Grammar) (r : Reading) (name : String) (value : Option String) :
    Except ArgumentError Reading :=
  match g.flag? name, g.slot? name with
  | some flag, _ => if value.isSome then .error .tooManyValues else r.raise flag
  | none, some slot => do
    let r ← r.settle
    match value with
    | some value => r.store slot value
    | none => .ok { r with pending := some (slot, none) }
  | none, none => .error .unknownArgument

/-- Whether the project directory has been given. -/
def hasProjectDir (r : Reading) : Bool :=
  r.projectDir.isSome || (r.pending.map (·.1 == .projectDir)).getD false

/-- Reads an argument that is no option and no value of one. -/
def positional (g : Grammar) (r : Reading) (text : String) : Except ArgumentError Reading :=
  if .projectDir ∉ g.slots then .error .unknownArgument
  else if r.hasProjectDir then .error .conflict
  else do
    let r ← r.settle
    .ok { r with pending := some (.projectDir, some text) }

/-- Reads one argument. -/
def step (g : Grammar) (r : Reading) (text : String) : Except ArgumentError Reading :=
  if r.optionsEnded then r.positional g text
  else
    match Argument.ofText text, r.pending with
    | .endOfOptions, _ => .ok { r with optionsEnded := true }
    | .long name value, _ => r.long g name value
    | .short letters, _ => letters.foldlM (letter g) r
    | .plain text, some (slot, none) => .ok { r with pending := some (slot, some text) }
    | .plain text, _ => r.positional g text

/-- The files that are asked for. -/
def selection (r : Reading) : Selection :=
  if .all ∈ r.flags then .all else if r.files.isEmpty then .changed else .files r.files

/-- What the arguments ask for. All files and single files are not asked for together. -/
def finish (command : Reading → Command) (r : Reading) : Except ArgumentError CommandLine := do
  let r ← r.settle
  if .all ∈ r.flags && !r.files.isEmpty then .error .conflict
  else
    .ok ⟨command r, r.projectDir.getD ".", r.selection, r.format.getD .stylish, .quiet ∈ r.flags,
      .verbose ∈ r.flags⟩

end Reading

/-- Reads the arguments of a command. -/
def parseWith (g : Grammar) (command : Reading → Command) (arguments : List String) :
    Except ArgumentError CommandLine := do
  let r ← arguments.foldlM (Reading.step g) {}
  r.finish command

/-- What asking for help about a command comes to. -/
def helpAbout : List String → ArgumentError
  | [] => .helpRequested
  | ["init"] => .helpRequested
  | ["help"] => .helpRequested
  | _ => .invalidSubcommand

/-- Reads a command line. -/
def parse : List String → Except ArgumentError CommandLine
  | "init" :: rest => parseWith .init (fun r => .init (.force ∈ r.flags)) rest
  | "help" :: rest => .error (helpAbout rest)
  | arguments => parseWith .lint (fun _ => .lint) arguments

end CommandLine

end TsxLint
