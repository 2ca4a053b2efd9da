import TsxLint.Binding.Model
import TsxLint.Lowering.Lower
import TsxLint.Path
import TsxLint.Text.Lines

/-!
# Source files

A source file is read in the dialect that its extension names. A file whose extension is not known,
or whose concrete tree has a faulty node, is not read any further.
-/

namespace TsxLint

/-- The dialects of the language: with markup and without. -/
inductive Dialect
  | ts
  | tsx
  deriving DecidableEq, Repr

namespace Dialect

/-- The word for a dialect. -/
def name : Dialect → String
  | ts => "ts"
  | tsx => "tsx"

/-- The dialect that the extension of a path names. -/
def ofPath? (path : String) : Option Dialect :=
  match Path.extension? path with
  | some "ts" | some "mts" | some "cts" => some ts
  | some "tsx" => some tsx
  | _ => none

end Dialect

/-- Why a source file is not read. -/
inductive SourceError
  | unexpectedToken (offset : Nat) (position : Position)
  | unsupportedExtension (path : String)
  deriving DecidableEq, Repr

/-- The text of the error. -/
def SourceError.message : SourceError → String
  | unexpectedToken _ position =>
    s!"Parsing error: unexpected token at {position.line}:{position.column}"
  | unsupportedExtension path => "Unsupported file extension: " ++ path

/-- A source file that was read. -/
structure SourceFile where
  path : String
  source : String
  dialect : Dialect
  model : Model
  lines : LineIndex

namespace SourceFile

/-- The text under a span. -/
def text (file : SourceFile) (span : Span) : String := span.textIn file.source

/-- Reads a file from its concrete tree. -/
def read (path source : String) (cst : Cst) : Except SourceError SourceFile :=
  match Dialect.ofPath? path with
  | none => .error (.unsupportedExtension path)
  | some dialect =>
    let lines := LineIndex.ofSource source
    match cst.errorOffset? with
    | some offset => .error (.unexpectedToken offset (lines.position source offset))
    | none => .ok ⟨path, source, dialect, Model.ofProgram (Program.ofCst cst), lines⟩

/-- A file that was read has the source and the model of the concrete tree that it was read from. -/
theorem eq_of_read {path source : String} {cst : Cst} {file : SourceFile}
    (h : read path source cst = .ok file) : ∃ dialect,
      file = ⟨path, source, dialect, .ofProgram (.ofCst cst), .ofSource source⟩ := by
  unfold read at h
  split at h
  · cases h
  · dsimp only at h
    split at h
    · cases h
    · exact ⟨_, (Except.ok.inj h).symm⟩

end SourceFile

end TsxLint
