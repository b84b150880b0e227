/-
Texts quoted for a message. Single quotes are used unless the text holds a
single quote and no double one; the quote in use, backslashes and what cannot
be printed are written as escapes.
-/
import Shorthand.Text.Basic
import Shorthand.Text.Unprintable

namespace Shorthand.Text

def isPrintable (c : Char) : Bool := !unprintables.contains c

/-- The quote a text is put in. -/
def quoteMark (t : Text) : Char :=
  if t.contains '\'' && !t.contains '"' then '"' else '\''

/-- One character between quotes. -/
def quotedChar (mark c : Char) : Text :=
  if c = mark || c = '\\' then ['\\', c]
  else if c = '\t' then ['\\', 't']
  else if c = '\n' then ['\\', 'n']
  else if c = '\r' then ['\\', 'r']
  else if isPrintable c then [c]
  else if c.toNat < 0x100 then '\\' :: 'x' :: hex 2 c.toNat
  else if c.toNat < 0x10000 then '\\' :: 'u' :: hex 4 c.toNat
  else '\\' :: 'U' :: hex 8 c.toNat

def quoted (t : Text) : Text :=
  let mark := quoteMark t
  mark :: t.flatMap (quotedChar mark) ++ [mark]

/-- One byte between quotes; those that are no printable ASCII characters are escapes. -/
def quotedByte (mark : Char) (b : UInt8) : Text :=
  if b < 0x7F then quotedChar mark (Char.ofNat b.toNat)
  else '\\' :: 'x' :: hex 2 b.toNat

/-- Bytes in quotes behind a `b`. -/
def quotedBytes (bytes : List UInt8) : Text :=
  let mark := quoteMark (bytes.map fun b => Char.ofNat b.toNat)
  'b' :: mark :: bytes.flatMap (quotedByte mark) ++ [mark]

end Shorthand.Text
