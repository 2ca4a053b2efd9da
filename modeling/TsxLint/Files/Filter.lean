import TsxLint.Config.Settings
import TsxLint.Files.Glob.Reader
import TsxLint.Path

/-!
# File filters

The globs of a configuration select files: a file is linted if a glob of the one list covers its path
in the project and no glob of the other list does.
-/

namespace TsxLint

/-- Why there is no filter: a text is no glob. -/
structure FilterError where
  pattern : String
  deriving DecidableEq, Repr

/-- The text of the error. -/
def FilterError.message (e : FilterError) : String := "invalid glob \"" ++ e.pattern ++ "\""

/-- The globs of files that are linted and of files that are not. -/
structure FileFilter where
  files : List Glob
  ignores : List Glob

namespace FileFilter

/-- The globs that texts stand for. -/
def globs (patterns : List String) : Except FilterError (List Glob) :=
  patterns.mapM fun pattern =>
    match Glob.parse? .selection pattern with
    | some glob => .ok glob
    | none => .error ⟨pattern⟩

/-- The filter of a configuration. -/
def ofConfig (lint : LintConfig) : Except FilterError FileFilter := do
  let files ← globs lint.files
  let ignores ← globs lint.ignores
  pure ⟨files, ignores⟩

/-- Whether a filter lets a path of the project through. -/
def admits (filter : FileFilter) (path : String) : Bool :=
  filter.files.any (·.covers path) && !filter.ignores.any (·.covers path)

/-- The paths that pass as seen from the project; those outside of it pass as they are. -/
def retain (filter : FileFilter) (project : String) (paths : List String) : List String :=
  paths.filter fun path => filter.admits (Path.seenFrom project path)

end FileFilter

end TsxLint
