/-
Columns counted in UTF-16 units. An editor addresses a place in a line by the
number of units before it; a character above U+FFFF takes two of them.
-/
import Shorthand.Text.Class

namespace Shorthand.Text

/-- The number of UTF-16 units a character takes. -/
def units (c : Char) : Nat := if c.toNat > 0xFFFF then 2 else 1

/-- The number of UTF-16 units of a text. -/
def width : Text → Nat
  | [] => 0
  | c :: rest => units c + width rest

/-- The index of the first character that begins at or after a column. A column
between the two units of a character goes to the index after it, and one past
the end to the length of the line. -/
def indexOfColumn : Text → Nat → Nat
  | [], _ => 0
  | _ :: _, 0 => 0
  | c :: rest, column => indexOfColumn rest (column - units c) + 1

/-- The column at which the character of an index begins. -/
def columnOfIndex (line : Text) (index : Nat) : Nat := width (line.take index)

end Shorthand.Text
