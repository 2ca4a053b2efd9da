import TsxLint.Text.Pattern

/-!
# Name globs

Allow-lists of names in which `*` stands for any run of characters within one line and every other
character stands for itself. A glob has to cover the whole name. It is turned into a pattern between
the two ends of the name: its parts are quoted, and each star becomes a run.
-/

namespace TsxLint.Naming

/-- The pattern of a glob. -/
def globPattern (glob : String) : String :=
  "^" ++ Text.joinWith ".*" ((Text.splitAt '*' glob).map Text.quote) ++ "$"

/-- A list of globs, as patterns. -/
structure GlobList where
  patterns : List Pattern
  deriving DecidableEq, Repr, Inhabited

/-- The list of some globs; those whose pattern cannot be read are left out. -/
def GlobList.ofGlobs (globs : List String) : GlobList :=
  ⟨globs.filterMap fun glob => Pattern.read? (globPattern glob)⟩

/-- Whether some glob of the list covers a name. -/
def GlobList.matches (list : GlobList) (name : String) : Bool :=
  list.patterns.any (·.occursIn name)

/-- Whether the list has no glob. -/
def GlobList.isEmpty (list : GlobList) : Bool := list.patterns.isEmpty

end TsxLint.Naming
