import TsxLint.Text.CaseTable
import TsxLint.Text.WordTable

/-!
# Words in a text

A word character is a letter, mark, digit or connector of any script. An edge of a word lies
between a word character and the start of the text or a character of another kind.
-/

namespace TsxLint.Text

/-- Whether words are made of a character. -/
def isWordChar (c : Char) : Bool := inRanges wordRanges c.toNat

/-- Whether a character may stand in an ASCII identifier. -/
def isIdentifierChar (c : Char) : Bool := c.isAlpha || c.isDigit || c == '_' || c == '$'

end TsxLint.Text
