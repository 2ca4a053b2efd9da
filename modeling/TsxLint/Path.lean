import TsxLint.Text.Affix

/-!
# Paths

Paths are read by component: repeated and trailing separators do not count, and a `.` counts only
at the very start. The extension of a file name is what follows its last dot, unless that dot is
its first character.

## Main definitions

* `Path.components`: the components of a path.
* `Path.fileName?`, `Path.stem?`, `Path.extension?`: the name of a file and its parts.
* `Path.join`, `Path.strip?`, `Path.below?`: a path below a base, and a path seen from a base.
* `Path.tidy`: a path written without what does not count.
-/

namespace TsxLint.Path

/-- A step of a path. -/
inductive Component
  | root
  | here
  | up
  | normal (name : String)
  deriving DecidableEq, Repr

/-- The component that a piece between separators stands for, past the start of the path. -/
def component? : String → Option Component
  | "" => none
  | "." => none
  | ".." => some .up
  | name => some (.normal name)

/-- The components of a path. -/
def components (path : String) : List Component :=
  let parts := Text.splitAt '/' path
  let tail := parts.filterMap component?
  match parts with
  | "" :: _ :: _ => .root :: tail
  | "." :: _ => .here :: tail
  | _ => tail

/-- The last component, if it names a file. -/
def fileName? (path : String) : Option String :=
  match (components path).getLast? with
  | some (.normal name) => some name
  | _ => none

/-- The part of a file name before its last dot and the part after it. -/
def splitExtension (name : String) : String × Option String :=
  let reversed := name.toList.reverse
  let extension := reversed.takeWhile (· != '.')
  match reversed.dropWhile (· != '.') with
  | [] => (name, none)
  | [_] => (name, none)
  | _ :: stem => (String.ofList stem.reverse, some (String.ofList extension.reverse))

/-- The file name without its extension. -/
def stem? (path : String) : Option String := (fileName? path).map fun name => (splitExtension name).1

/-- The extension of the file name. -/
def extension? (path : String) : Option String := (fileName? path).bind fun name => (splitExtension name).2

/-! ### Paths below a base -/

/-- A path below a base; an absolute path stands on its own. -/
def join (base path : String) : String :=
  if Text.startsWith path "/" then path
  else if base = "" || Text.endsWith base "/" then base ++ path
  else base ++ "/" ++ path

/-- The components of a path past those of a base, if it lies below the base. -/
def below? (base path : String) : Option (List Component) :=
  (components base).isPrefixOf? (components path)

/-- Whether a piece between separators counts for nothing, past the start of the path. -/
def isIdle (piece : String) : Bool := (component? piece).isNone

/-- Pieces without the idle ones at the end. -/
def trimPieces (pieces : List String) : List String := (pieces.reverse.dropWhile isIdle).reverse

/-- What follows the first `n` components among the pieces of a path. -/
def dropComponents : Nat → List String → List String
  | 0, pieces => pieces
  | _ + 1, [] => []
  | n + 1, piece :: pieces =>
    if isIdle piece then dropComponents (n + 1) pieces else dropComponents n pieces

/-- The pieces after the first `n + 1` components of a path; a separator or a `.` at the very start
is a component. -/
def piecesAfter (n : Nat) (path : String) : List String :=
  match Text.splitAt '/' path with
  | "" :: piece :: pieces => dropComponents n (piece :: pieces)
  | "." :: pieces => dropComponents n pieces
  | pieces => dropComponents (n + 1) pieces

/-- A path without the idle pieces at its end. -/
def trimmed (path : String) : String :=
  match Text.splitAt '/' path with
  | "" :: piece :: pieces => "/" ++ Text.joinWith "/" (trimPieces (piece :: pieces))
  | "." :: pieces => Text.joinWith "/" ("." :: trimPieces pieces)
  | pieces => Text.joinWith "/" (trimPieces pieces)

/-- A path as seen from a base, if it lies below the base. -/
def strip? (base path : String) : Option String :=
  let above := components base
  if above.isPrefixOf (components path) then
    match above.length with
    | 0 => some (trimmed path)
    | n + 1 => some (Text.joinWith "/" (trimPieces ((piecesAfter n path).dropWhile isIdle)))
  else none

/-- A path as seen from a base, or as it is if it does not lie below the base. -/
def seenFrom (base path : String) : String := (strip? base path).getD path

/-- The text of a component. -/
def Component.text : Component → String
  | root => ""
  | here => "."
  | up => ".."
  | normal name => name

/-- A path written without what does not count; a separator at the end is kept, and so are two at
the start. -/
def tidy (path : String) : String :=
  let start := if Text.startsWith path "//" && !Text.startsWith path "///" then "/" else ""
  let body := Text.joinWith "/" ((components path).map Component.text)
  let whole := if components path = [.root] then start ++ "/" else start ++ body
  if Text.endsWith path "/" && !Text.endsWith whole "/" then whole ++ "/" else whole

end TsxLint.Path
