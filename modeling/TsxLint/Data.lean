/-!
# Plain data

Values as configuration files and options hold them: numbers, texts, lists and tables with named
entries. A number with a fraction is kept apart from a whole one, because only whole numbers count.
-/

namespace TsxLint

/-- A plain value. `fraction m e` is `m · 10⁻ᵉ`. -/
inductive Data
  | null
  | bool (value : Bool)
  | whole (value : Int)
  | fraction (mantissa : Int) (exponent : Nat)
  | text (value : String)
  | list (items : List Data)
  | table (entries : List (String × Data))
  deriving Inhabited

namespace Data

/-- The entry of a table. -/
def get? (key : String) : Data → Option Data
  | table entries => entries.lookup key
  | _ => none

/-- The text of a text. -/
def text? : Data → Option String
  | text value => some value
  | _ => none

/-- The truth value of a truth value. -/
def bool? : Data → Option Bool
  | bool value => some value
  | _ => none

/-- The value of a whole number from zero up to the largest of 64 bits. -/
def count? : Data → Option Nat
  | whole value => if 0 ≤ value ∧ value.toNat < UInt64.size then some value.toNat else none
  | _ => none

/-- The texts of a list of texts. -/
def texts? : Data → Option (List String)
  | list items => items.mapM text?
  | _ => none

end Data

end TsxLint
