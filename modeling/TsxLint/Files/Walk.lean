import TsxLint.Files.Disk
import TsxLint.Files.Ignore

/-!
# Walking a directory

A walk reaches the files below a directory that no ignore file and no leading dot hides. Ignore files
of all directories above an entry are asked, the nearest first; one kind of ignore file goes before
the next. What is below a directory that is skipped is not reached.

## Main definitions

* `Disk.verdict?`: what the ignore files say about an entry.
* `Disk.isReached`, `Disk.walk`: the files that a walk reaches, in the order of their names.
-/

namespace TsxLint.Disk

/-- The names of ignore files, the most decisive first. -/
def ignoreFiles : List (List String) := [[".ignore"], [".gitignore"], [".git", "info", "exclude"]]

/-- The directories above an entry, the nearest first. -/
def directoriesAbove (names : List String) : List (List String) :=
  (List.range names.length).reverse.map names.take

/-- What one ignore file of a directory says about an entry below the directory. -/
def verdictIn? (disk : Disk) (file directory entry : List String) (isDirectory : Bool) :
    Option IgnoreVerdict :=
  (disk.file? (directory ++ file)).bind fun contents =>
    IgnoreRule.verdict? (IgnoreRule.ofText contents.text)
      (Text.joinWith "/" (entry.drop directory.length)) isDirectory

/-- What the ignore files say about an entry. -/
def verdict? (disk : Disk) (entry : List String) (isDirectory : Bool) : Option IgnoreVerdict :=
  ignoreFiles.findSome? fun file =>
    (directoriesAbove entry).findSome? fun directory =>
      disk.verdictIn? file directory entry isDirectory

/-- Whether the last name of an entry has a leading dot. -/
def isHidden (entry : List String) : Bool := Text.startsWith (entry.getLastD "") "."

/-- Whether a walk skips an entry. -/
def isSkipped (disk : Disk) (entry : List String) (isDirectory : Bool) : Bool :=
  match disk.verdict? entry isDirectory with
  | some .ignored => true
  | some .kept => false
  | none => isHidden entry

/-- Whether a walk from a directory reaches the file that is below it under some names: it skips
neither the file nor a directory on the way. -/
def isReached (disk : Disk) (directory names : List String) : Bool :=
  (List.range names.length).all fun i =>
    !disk.isSkipped (directory ++ names.take (i + 1)) (i + 1 < names.length)

/-- The names under which files are found below a directory. -/
def below (disk : Disk) (directory : List String) : List (List String) :=
  (disk.files.filter fun f => directory.isPrefixOf f.1).map fun f => f.1.drop directory.length

/-- The files that a walk from a directory reaches, in the order of their names. -/
def walk (disk : Disk) (directory : List String) : List (List String) :=
  ((disk.below directory).filter (disk.isReached directory)).mergeSort fun a b => !(b < a)

end TsxLint.Disk
