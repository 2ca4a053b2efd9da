import TsxLint.Data

/-!
# Reading options

Options are a table with known keys, or a list that gives the values in the order of the keys. An
absent value stands for its default, an unknown key or a value too many makes the options invalid,
and so does a value of the wrong kind.
-/

namespace TsxLint

/-- Options by key, all of them known. -/
abbrev OptionTable := List (String × Data)

namespace OptionTable

/-- The options given as plain data, if they are of the known keys. Nothing at all stands for
options that give no value. -/
def ofData? (keys : List String) : Data → Option OptionTable
  | .null => some []
  | .table entries => if entries.all fun e => keys.contains e.1 then some entries else none
  | .list items => if items.length ≤ keys.length then some (keys.zip items) else none
  | _ => none

/-- The value of an option: as read, or the default where it is not given. -/
def read? {α : Type} (table : OptionTable) (key : String) (reader : Data → Option α) (default : α) :
    Option α :=
  match table.lookup key with
  | none => some default
  | some value => reader value

end OptionTable

/-- Reads a value that may be given as nothing. -/
def Data.optional {α : Type} (reader : Data → Option α) : Data → Option (Option α)
  | .null => some none
  | value => (reader value).map some

/-- Reads one of some words: written as a text, or as the only key of a table that holds nothing
under it. -/
def Data.choice? {α : Type} (words : List (String × α)) : Data → Option α
  | .text word => words.lookup word
  | .table [(word, .null)] => words.lookup word
  | _ => none

/-- Reads a list of values. -/
def Data.listOf? {α : Type} (reader : Data → Option α) : Data → Option (List α)
  | .list items => items.mapM reader
  | _ => none

/-- The check of a rule without options. -/
def withoutOptions {α : Type} (check : α) (data : Data) : Option α :=
  (OptionTable.ofData? [] data).map fun _ => check

end TsxLint
