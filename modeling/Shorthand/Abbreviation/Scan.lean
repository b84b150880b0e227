/-
Where an abbreviation that ends at the end of a text begins, read backwards. The scan
steps over characters an abbreviation may hold, over what stands in brackets, and ends
at an HTML tag. Every function here takes the text before a place in reverse, so that
the next character to be read is its head.
-/
import Shorthand.Dialect.Family

namespace Shorthand.Abbreviation.Scan

open Text (isAsciiLetter isDecimal)

/-- The bracket that opens what a closing one closes. -/
def partner : Char → Option Char
  | ')' => some '('
  | ']' => some '['
  | '}' => some '{'
  | _ => none

/-- Whether a character is a bracket in abbreviations of a family: round ones are in
both families. -/
def isBracket (family : Dialect.Family) (c : Char) : Bool :=
  c == '(' || c == ')' ||
    (family == .markup && ['[', ']', '{', '}'].contains c)

def isClosing (family : Dialect.Family) (c : Char) : Bool :=
  isBracket family c && (partner c).isSome

def isOpening (family : Dialect.Family) (c : Char) : Bool :=
  isBracket family c && (partner c).isNone

/-- The characters an abbreviation is made of outside brackets. -/
def isAbbreviationChar (c : Char) : Bool :=
  isAsciiLetter c || isDecimal c ||
    ['#', '.', '*', ':', '$', '-', '_', '!', '@', '%', '^', '+', '>', '/'].contains c

def isTagBlank (c : Char) : Bool := c == ' ' || c == '\t'

def isIdentChar (c : Char) : Bool :=
  c == ':' || c == '-' || isAsciiLetter c || isDecimal c

/-- What is before an identifier, if one ends here. -/
def beforeIdent? : Text → Option Text
  | [] => none
  | c :: before => if isIdentChar c then some (before.dropWhile isIdentChar) else none

/-- What is before `name=`, if that ends here. -/
def beforeNameEquals? : Text → Option Text
  | '=' :: before => beforeIdent? before
  | _ => none

/-- What is before the quote that opens a string: the first one not preceded by a
backslash. -/
def beforeQuote? (quote : Char) : Text → Option Text
  | [] => none
  | [c] => if c = quote then some [] else none
  | c :: p :: before =>
    if c = quote && p ≠ '\\' then some (p :: before) else beforeQuote? quote (p :: before)

/-- What is before an attribute with a quoted value, if one ends here. -/
def beforeQuotedAttribute? : Text → Option Text
  | [] => none
  | quote :: before =>
    if quote = '"' || quote = '\'' then (beforeQuote? quote before).bind beforeNameEquals?
    else none

/-- What is before a value without quotes, `stack` being the brackets that wait for
their partner. -/
def beforeBareValue : (stack : List Char) → Text → Text
  | _, [] => []
  | stack, c :: before =>
    if (partner c).isSome then beforeBareValue (c :: stack) before
    else if ['(', '[', '{'].contains c then
      match stack with
      | [] => c :: before
      | top :: others =>
        if partner top = some c then beforeBareValue others before else c :: before
    else if c = '=' || isTagBlank c || c = '"' || c = '\'' then c :: before
    else beforeBareValue stack before

/-- What is before an attribute with a value without quotes, if one ends here. -/
def beforeBareAttribute? (t : Text) : Option Text :=
  let before := beforeBareValue [] t
  if before.length < t.length then beforeNameEquals? before else none

/-- Whether what stands here is the inside of a tag, read back to its `<`. Each round
reads at least one character. -/
def isTagInside : (fuel : Nat) → Text → Bool
  | 0, _ => false
  | _, [] => false
  | fuel + 1, t =>
    let t := t.dropWhile isTagBlank
    match beforeIdent? t with
    | some ('/' :: before) => before.head? == some '<'
    | some ('<' :: _) => true
    | some ('=' :: before) => match beforeIdent? before with
      | some before => isTagInside fuel before
      | none => false
    | some [] => false
    | some (c :: before) =>
      if isTagBlank c then isTagInside fuel before
      else (beforeBareAttribute? (c :: before)).isSome
    | none => match (beforeQuotedAttribute? t).or (beforeBareAttribute? t) with
      | some before => isTagInside fuel before
      | none => false

/-- Whether an HTML tag ends here. -/
def endsTag : Text → Bool
  | '>' :: '/' :: before => isTagInside before.length before
  | '>' :: before => isTagInside before.length before
  | _ => false

/-- Scans backwards, `stack` being the closing brackets that wait for their partner.
The answer is the stack where the scan stops and the number of characters scanned. -/
def back (family : Dialect.Family) : (stack : List Char) → Text → List Char × Nat
  | stack, [] => (stack, 0)
  | stack, c :: before =>
    let goOn (stack : List Char) :=
      let (left, n) := back family stack before
      (left, n + 1)
    if stack.contains '}' && c == '}' then goOn (c :: stack)
    else if stack.contains '}' && c != '{' then goOn stack
    else if isClosing family c then goOn (c :: stack)
    else if isOpening family c then
      match stack with
      | [] => ([], 0)
      | top :: others => if partner top = some c then goOn others else (others, 0)
    else if stack.contains ']' || stack.contains '}' then goOn stack
    else if endsTag (c :: before) || !isAbbreviationChar c then (stack, 0)
    else goOn stack

/-- The characters an abbreviation does not begin with. -/
def isLeadingOperator (c : Char) : Bool := ['*', '+', '>', '^'].contains c

/-- Where the abbreviation that ends a text begins. The place may be the end of the
text, when only operators were found. -/
def start? (family : Dialect.Family) (t : Text) : Option Nat :=
  match back family [] t.reverse with
  | ([], n + 1) =>
    let found := (t.drop (t.length - (n + 1))).dropWhile isLeadingOperator
    some (t.length - found.length)
  | _ => none

end Shorthand.Abbreviation.Scan
