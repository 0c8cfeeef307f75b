import LinePatch.Text.Numeral

/-!
# JSON values

Objects keep the order and the repetitions of their members, and numbers their literals.
-/

namespace LinePatch

/-- A JSON value. -/
inductive Json
  | null
  | bool (value : Bool)
  | number (literal : Text)
  | string (value : Text)
  | array (items : List Json)
  | object (members : List (Text × Json))
  deriving Repr

namespace Json

/-- Why a text is no JSON: it breaks the grammar or a limit, or it ends too early. -/
inductive Fault
  | malformed
  | endOfText
  deriving DecidableEq, Repr

/-- What reads something from the start of a text, and gives what follows it. -/
abbrev Reader (α : Type) := Text → Except Fault (α × Text)

/-- The natural number of 64 bits that a literal writes out, if it is one. -/
def natural? (literal : Text) : Option Nat :=
  if literal ≠ [] ∧ literal.all Numeral.isDigit ∧ Numeral.value literal < UInt64.size then
    some (Numeral.value literal)
  else none

/-- The characters that may stand between tokens. -/
def isSpace (c : Char) : Bool := c == ' ' || c == '\n' || c == '\t' || c == '\r'

/-- A text without the spaces at its start. -/
def skipSpace (t : Text) : Text := t.dropWhile isSpace

end Json

end LinePatch
