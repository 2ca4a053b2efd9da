import TsxLint.Data
import TsxLint.Path
import TsxLint.Tree.Concrete

/-!
# Directories of files

A disk is a value: the files below one directory, each under the names that lead to it. A path is
followed name by name, so that it is told apart whether nothing is there, whether a name on the way
is no directory, and whether the path ends at a directory.

## Main definitions

* `Disk`, `Disk.write`: the files below a directory, and a file put among them.
* `Disk.find`, `Disk.read`: what a path leads to, and the file at its end.
* `Disk.createAll`, `Disk.removeAll`: making a directory with all above it, and removing one with
  all below it.
-/

namespace TsxLint

/-- What a file holds: a text, with the tree that a grammar yields for it and the table that it
reads as if it holds settings. -/
structure Contents where
  text : String
  tree : Cst := default
  table : Option Data := none
  deriving Inhabited

/-- Why a path does not lead to a file. -/
inductive ReadFailure
  | missing
  | throughFile
  | isDirectory
  deriving DecidableEq, Repr

/-- The text of the failure. -/
def ReadFailure.message : ReadFailure → String
  | missing => "No such file or directory (os error 2)"
  | throughFile => "Not a directory (os error 20)"
  | isDirectory => "Is a directory (os error 21)"

/-- Why a directory is not made or removed: what the path leads through, or a refusal of the host in
its own words. -/
inductive ChangeFailure
  | missing
  | throughFile
  | occupied
  | refused (cause : String)
  deriving DecidableEq, Repr

/-- The text of the failure. -/
def ChangeFailure.message : ChangeFailure → String
  | missing => ReadFailure.missing.message
  | throughFile => ReadFailure.throughFile.message
  | occupied => "File exists (os error 17)"
  | refused cause => cause

/-- What a path leads to. -/
inductive DiskEntry
  | directory (names : List String)
  | file (contents : Contents)

/-- The files and directories below the directory called `root`. -/
structure Disk where
  root : String
  directories : List (List String) := []
  files : List (List String × Contents) := []

namespace Disk

/-- The names that components lead through, from a directory. -/
def namesAlong (names : List String) : List Path.Component → List String
  | [] => names
  | .root :: rest => namesAlong names rest
  | .here :: rest => namesAlong names rest
  | .up :: rest => namesAlong names.dropLast rest
  | .normal name :: rest => namesAlong (names ++ [name]) rest

/-- The names that a path leads through, from the root. -/
def namesOf (disk : Disk) (path : String) : List String :=
  namesAlong [] ((Path.below? disk.root path).getD (Path.components path))

/-- Adds a directory under some names. -/
def addDirectory (disk : Disk) (names : List String) : Disk :=
  { disk with directories := disk.directories ++ [names] }

/-- Adds the directory of a path, whatever is on the way. -/
def makeDirectory (disk : Disk) (path : String) : Disk := disk.addDirectory (disk.namesOf path)

/-- Writes a file, in the place of one that has the same path. -/
def write (disk : Disk) (path : String) (contents : Contents) : Disk :=
  let names := disk.namesOf path
  { disk with files := disk.files.filter (fun f => f.1 != names) ++ [(names, contents)] }

/-- The file under some names. -/
def file? (disk : Disk) (names : List String) : Option Contents := disk.files.lookup names

/-- Whether names lead to a directory: one that was made, or one on the way to a file. -/
def isDirectory (disk : Disk) (names : List String) : Bool :=
  names.isEmpty || disk.directories.any names.isPrefixOf ||
    disk.files.any fun f => names.isPrefixOf f.1 && names.length < f.1.length

/-- Follows the components of a path from a directory. -/
def follow (disk : Disk) (names : List String) : List Path.Component → Except ReadFailure DiskEntry
  | [] => .ok (.directory names)
  | .root :: rest => disk.follow names rest
  | .here :: rest => disk.follow names rest
  | .up :: rest => disk.follow names.dropLast rest
  | .normal name :: rest =>
    let next := names ++ [name]
    if disk.isDirectory next then disk.follow next rest
    else
      match disk.file? next, rest with
      | none, _ => .error .missing
      | some contents, [] => .ok (.file contents)
      | some _, _ :: _ => .error .throughFile

/-- What a path leads to. A separator after a name asks for a directory. -/
def find (disk : Disk) (path : String) : Except ReadFailure DiskEntry :=
  match Path.below? disk.root path with
  | none => .error .missing
  | some steps =>
    match disk.follow [] steps with
    | .ok (.file contents) =>
      if ((Text.splitAt '/' path).getLast?.map Path.isIdle).getD true then .error .throughFile
      else .ok (.file contents)
    | found => found

/-- The file that a path leads to. -/
def read (disk : Disk) (path : String) : Except ReadFailure Contents :=
  match disk.find path with
  | .ok (.file contents) => .ok contents
  | .ok (.directory _) => .error .isDirectory
  | .error failure => .error failure

/-- The directory that a path leads to. -/
def directory? (disk : Disk) (path : String) : Option (List String) :=
  match disk.find path with
  | .ok (.directory names) => some names
  | _ => none

/-- Whether a path leads to a file. -/
def hasFile (disk : Disk) (path : String) : Bool := (disk.read path).isOk

/-- The settings in the file that a path leads to. -/
def settings? (disk : Disk) (path : String) : Option Data :=
  match disk.read path with
  | .ok contents => contents.table
  | .error _ => none

/-! ### Making and removing directories -/

/-- Makes the directories that components lead through, from a directory, as far as nothing is in
the way and the host does not refuse. Gives the disk after it, and why it stopped. -/
def createAlong (refusal : List String → Option String) (disk : Disk) (names : List String) :
    List Path.Component → Disk × Option ChangeFailure
  | [] => (disk, none)
  | .root :: rest => disk.createAlong refusal names rest
  | .here :: rest => disk.createAlong refusal names rest
  | .up :: rest => disk.createAlong refusal names.dropLast rest
  | .normal name :: rest =>
    let next := names ++ [name]
    if disk.isDirectory next then disk.createAlong refusal next rest
    else
      match disk.file? next, refusal next with
      | some _, _ => (disk, some (if rest.isEmpty then .occupied else .throughFile))
      | none, some cause => (disk, some (.refused cause))
      | none, none => (disk.addDirectory next).createAlong refusal next rest

/-- Makes the directory of a path, and those above it that are missing. -/
def createAll (refusal : List String → Option String) (disk : Disk) (path : String) :
    Disk × Option ChangeFailure :=
  match Path.below? disk.root path with
  | none => (disk, some .missing)
  | some steps => disk.createAlong refusal [] steps

/-- Keeps a directory, and of what is below it only some entries. -/
def prune (disk : Disk) (directory : List String) (kept : List String → Bool) : Disk :=
  { disk with
    directories := directory :: disk.directories.filter fun d => !directory.isPrefixOf d || kept d
    files := disk.files.filter fun f => !directory.isPrefixOf f.1 || kept f.1 }

/-- Removes a directory with all that is below it. The directory above it stays. -/
def remove (disk : Disk) (directory : List String) : Disk :=
  { disk with
    directories := directory.dropLast :: disk.directories.filter fun d => !directory.isPrefixOf d
    files := disk.files.filter fun f => !directory.isPrefixOf f.1 }

/-- Removes the directory that a path leads to; a missing one counts as removed. The host may stop
on the way and keep some entries. -/
def removeAll (stop : Option (String × (List String → Bool))) (disk : Disk) (path : String) :
    Disk × Option ChangeFailure :=
  match disk.find path with
  | .error .missing => (disk, none)
  | .ok (.directory names) =>
    match stop with
    | none => (disk.remove names, none)
    | some (cause, kept) => (disk.prune names kept, some (.refused cause))
  | _ => (disk, some .throughFile)

end Disk

end TsxLint
