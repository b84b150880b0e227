/-
Whether a text is shaped like an abbreviation of a family. The check looks at the
text alone, so that a valid one may still expand to nothing.
-/
import Shorthand.Abbreviation.Grammar
import Shorthand.Abbreviation.Tokenize
import Shorthand.Dialect.Family

namespace Shorthand.Abbreviation

open Text

/-- The digits of a repeat count that cannot be read as a number. -/
structure UnreadableCount where
  digits : Text
  deriving DecidableEq, Repr

/-- A text that is empty or made of digits is never an abbreviation. -/
def isEmptyOrDigits (t : Text) : Bool := t.all isDigit

/-- Hexadecimal digits of a colour; decimal digits of other scripts are let through. -/
def isColorDigit (c : Char) : Bool := isDecimal c || isAsciiHexDigit c

/-- What is left of a colour after at most six digits. -/
def afterColorDigits : (most : Nat) → Text → Text
  | 0, t => t
  | _, [] => []
  | most + 1, c :: rest => if isColorDigit c then afterColorDigits most rest else c :: rest

/-- A colour: `#` and up to six digits. -/
def isColor : Text → Bool
  | '#' :: rest => (afterColorDigits 6 rest).isEmpty
  | _ => false

/-- A property with a colour: letters, an optional `:`, a colour, and an optional `!`
or `!important`. -/
def isPropertyColor (t : Text) : Bool :=
  let afterName := t.dropWhile isAsciiLetter
  let value := match afterName with
    | ':' :: rest => rest
    | rest => rest
  afterName.length < t.length &&
    match value with
    | '#' :: rest =>
      let left := afterColorDigits 6 rest
      left.isEmpty || left == ['!'] || left == "!important".toList
    | _ => false

def isStylesheetStart (c : Char) : Bool := isAsciiLetter c || ['!', '@', '#'].contains c

def isStylesheetChar (c : Char) : Bool :=
  isAsciiAlphanumeric c ||
    ['_', '-', ':', '.', '$', '%', '!', '@', '#', '+', ',', '/'].contains c

/-- A run of stylesheet characters that begins like a name, after an optional `-`. -/
def isStylesheetRun (t : Text) : Bool :=
  match (match t with | '-' :: rest => rest | rest => rest) with
  | [] => false
  | c :: rest => isStylesheetStart c && rest.all isStylesheetChar

/-- Whether a text is a stylesheet abbreviation. One that ends in `:` is a property
being typed. -/
def isStylesheet (t : Text) : Bool :=
  if isEmptyOrDigits t then false
  else if t.getLast? == some ':' then false
  else if t.contains '#' then isColor t || isPropertyColor t
  else isStylesheetRun t

def isMarkupStart (c : Char) : Bool := isLetter c || ['!', '(', '[', '#', '.', '{'].contains c

/-- Whether a text is a markup abbreviation. Exclamation marks alone are the doctype. -/
def isMarkup (t : Text) : Except UnreadableCount Bool :=
  if isEmptyOrDigits t then .ok false
  else match t with
    | [] => .ok false
    | '!' :: rest => .ok (rest.all (· == '!'))
    | c :: _ =>
      if !isMarkupStart c then .ok false
      else match tokenize t with
        | .error (.unreadableCount digits) => .error ⟨digits⟩
        | .error (.malformed _) => .ok false
        | .ok tokens => match parse tokens with
          | .error _ => .ok false
          | .ok () => .ok true

/-- Whether a text is an abbreviation of a family. -/
def isValidIn (family : Dialect.Family) (t : Text) : Except UnreadableCount Bool :=
  match family with
  | .markup => isMarkup t
  | .stylesheet => .ok (isStylesheet t)

/-- Whether a text that may be missing is an abbreviation of a dialect. -/
def isValid (dialect t : Option Text) : Except UnreadableCount Bool :=
  match t with
  | none => .ok false
  | some t => if isEmptyOrDigits t then .ok false else isValidIn (Dialect.familyOf dialect) t

end Shorthand.Abbreviation
