import TsxLint.Cli.Program

/-!
# Surroundings as text

What the program finds around it is described line by line, as records of fields between tabulators.
In a field, a backslash before `n`, `t` or another backslash writes a line feed, a tabulator or a
backslash. A file is followed by the nodes of its tree in preorder.

| record | fields |
|---|---|
| `file` | path, text |
| `node` | kind, `named` or `token`, field, start, end, number of children |
| `settings` | path, value |
| `directory`, `current`, `home`, `changed` | path |
| `variable` | name, value |
| `runtime` | version |
| `installed` | duration |
| `failed` | message |

Paths are seen from the current directory as it was last named. A record of another kind is passed
over.
-/

namespace TsxLint

namespace Record

/-- A field with its escapes resolved. -/
def unescaped : List Char → List Char
  | '\\' :: 'n' :: rest => '\n' :: unescaped rest
  | '\\' :: 't' :: rest => '\t' :: unescaped rest
  | '\\' :: '\\' :: rest => '\\' :: unescaped rest
  | c :: rest => c :: unescaped rest
  | [] => []

/-- The fields of a line. -/
def fields (line : String) : List String :=
  (Text.splitAt '\t' line).map fun field => String.ofList (unescaped field.toList)

/-- The node that the fields of a record describe. -/
def row? : List String → Option Cst.Row
  | [kind, named, field, start, stop, children] => do
    pure ⟨kind, named == "named", field, ⟨← start.toNat?, ← stop.toNat?⟩, ← children.toNat?⟩
  | _ => none

end Record

/-- Surroundings as far as they have been read: a file whose nodes are still being read is kept with
the nodes read so far, the latest first. -/
structure SurroundingsReading where
  around : Surroundings
  file : Option (String × String) := none
  rows : List Cst.Row := []

namespace SurroundingsReading

/-- Writes a file to the disk. -/
def write (r : SurroundingsReading) (path : String) (contents : Contents) : SurroundingsReading :=
  let w := r.around.toWorkspace
  { r with around := { r.around with
      disk := w.disk.write (Path.join w.current path) contents } }

/-- Puts the file whose nodes have been read onto the disk. -/
def closeFile (r : SurroundingsReading) : SurroundingsReading :=
  match r.file with
  | none => r
  | some (path, text) =>
    let tree := (Cst.ofRows text r.rows.reverse).getD default
    { r.write path { text := text, tree := tree } with file := none, rows := [] }

/-- Reads a record that is no node. -/
def record (r : SurroundingsReading) : List String → SurroundingsReading
  | ["file", path, text] => { r with file := some (path, text) }
  | ["settings", path, value] => r.write path { text := "", table := some (ValueText.read value) }
  | ["directory", path] =>
    let w := r.around.toWorkspace
    { r with around := { r.around with
        disk := w.disk.makeDirectory (Path.join w.current path) } }
  | ["current", path] => { r with around := { r.around with current := path } }
  | ["home", path] => { r with around := { r.around with home := some path } }
  | ["changed", path] =>
    { r with around := { r.around with changed := r.around.toWorkspace.changed ++ [path] } }
  | ["variable", name, value] =>
    { r with around := { r.around with
        environment := r.around.toWorkspace.environment ++ [(name, value)] } }
  | ["runtime", version] => { r with around := { r.around with runtime := version } }
  | ["installed", duration] => { r with around := { r.around with install := fun _ => .done duration } }
  | ["failed", message] => { r with around := { r.around with install := fun _ => .failed message } }
  | _ => r

/-- Reads one line. -/
def line (r : SurroundingsReading) (text : String) : SurroundingsReading :=
  match Record.fields text with
  | "node" :: fields =>
    match Record.row? fields with
    | some row => { r with rows := row :: r.rows }
    | none => r
  | fields => r.closeFile.record fields

end SurroundingsReading

/-- The surroundings before anything is said about them. -/
def Surroundings.bare : Surroundings where
  disk := { root := "" }
  current := ""
  runtime := ""
  install := fun _ => .failed "no installer"

/-- The surroundings that lines describe. -/
def Surroundings.ofLines (lines : List String) : Surroundings :=
  (lines.foldl SurroundingsReading.line { around := Surroundings.bare }).closeFile.around

end TsxLint
