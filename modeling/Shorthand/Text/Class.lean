/-
Character classes. A decimal digit can stand in a positional number, a digit
may also be a superscript or a circled one, and an alphanumeric is a letter or
anything with a numeric value; the ASCII classes are the ones an abbreviation's
own grammar names.
-/
import Shorthand.Text.Digits
import Shorthand.Text.Letters

namespace Shorthand

/-- A text is its list of characters. -/
abbrev Text := List Char

namespace Text

def isLetter (c : Char) : Bool := letters.contains c

def isDecimal (c : Char) : Bool := decimalDigits.contains c

def isDigit (c : Char) : Bool := isDecimal c || otherDigits.contains c

def isAlphanumeric (c : Char) : Bool :=
  isLetter c || isDigit c || otherNumerics.contains c

/-- What a word is made of: alphanumerics and the underscore. -/
def isWordChar (c : Char) : Bool := isAlphanumeric c || c == '_'

/-- White space: the ASCII blanks, the four information separators, and the
line and space separators of the other scripts. -/
def blanks : Ranges :=
  [(0x9, 0xD), (0x1C, 0x20), (0x85, 0x85), (0xA0, 0xA0), (0x1680, 0x1680), (0x2000, 0x200A),
   (0x2028, 0x2029), (0x202F, 0x202F), (0x205F, 0x205F), (0x3000, 0x3000)]

def isBlank (c : Char) : Bool := blanks.contains c

def isAsciiLetter (c : Char) : Bool := c.isAlpha

def isAsciiDigit (c : Char) : Bool := c.isDigit

def isAsciiAlphanumeric (c : Char) : Bool := c.isAlphanum

/-- The letters `a` to `z` when case is ignored. Folding case also brings in the
dotted capital and dotless small i, the long s and the Kelvin sign. -/
def isFoldedAsciiLetter (c : Char) : Bool :=
  isAsciiLetter c || ['\u0130', '\u0131', '\u017F', '\u212A'].contains c

def isAsciiHexDigit (c : Char) : Bool :=
  isAsciiDigit c || ('a' ≤ c && c ≤ 'f') || ('A' ≤ c && c ≤ 'F')

/-- The value of a hexadecimal digit, and of any other character 0. -/
def hexValue (c : Char) : Nat :=
  if c.isDigit then c.toNat - '0'.toNat
  else if 'a' ≤ c && c ≤ 'f' then c.toNat - 'a'.toNat + 10
  else if 'A' ≤ c && c ≤ 'F' then c.toNat - 'A'.toNat + 10
  else 0

/-- The value of a decimal digit of any script. -/
def digitValue? (c : Char) : Option Nat := (decimalDigits.offset? c).map (· % 10)

end Text

end Shorthand
