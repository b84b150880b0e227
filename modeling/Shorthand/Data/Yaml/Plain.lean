/-
What a YAML scalar without a tag is, told by its text: nothing, a truth value, a number, a
time, or else a text.
-/
import Shorthand.Text.Basic

namespace Shorthand.Data.Yaml

/-- What a node is. -/
inductive Tag where
  | null | bool | int | float | binary | timestamp | text
  | sequence | mapping | set | orderedMap | pairs
  /-- The key `<<`, which merges mappings into the one it stands in. -/
  | merge
  /-- The text `=`, which is the value of a mapping. -/
  | value
  | foreign (name : Text)
  deriving DecidableEq, Repr, Inhabited

def standardTags : List (Text × Tag) :=
  [("null", Tag.null), ("bool", .bool), ("int", .int), ("float", .float), ("binary", .binary),
   ("timestamp", .timestamp), ("str", .text), ("seq", .sequence), ("map", .mapping),
   ("set", .set), ("omap", .orderedMap), ("pairs", .pairs), ("merge", .merge),
   ("value", .value)].map fun (name, tag) => ("tag:yaml.org,2002:".toList ++ name.toList, tag)

/-- The tag of a whole name. -/
def Tag.ofText (name : Text) : Tag := (standardTags.lookup name).getD (.foreign name)

def nullWords : List Text := ["", "~", "null", "Null", "NULL"].map String.toList

def boolWords : List (Text × Bool) :=
  [("yes", true), ("Yes", true), ("YES", true), ("no", false), ("No", false), ("NO", false),
   ("true", true), ("True", true), ("TRUE", true), ("false", false), ("False", false),
   ("FALSE", false), ("on", true), ("On", true), ("ON", true), ("off", false), ("Off", false),
   ("OFF", false)].map fun (w, b) => (w.toList, b)

def infinityWords : List Text := [".inf", ".Inf", ".INF"].map String.toList

def nanWords : List Text := [".nan", ".NaN", ".NAN"].map String.toList

/-- A text without the sign it begins with. -/
def unsigned : Text → Text
  | '+' :: rest => rest
  | '-' :: rest => rest
  | t => t

def isDigitOrBar (c : Char) : Bool := Text.isAsciiDigit c || c == '_'

/-- A digit, and digits or underscores after it. -/
def isDigits : Text → Bool
  | [] => false
  | c :: rest => Text.isAsciiDigit c && rest.all isDigitOrBar

/-- Digits or underscores that do not begin with a zero. -/
def isPositive : Text → Bool
  | [] => false
  | c :: rest => Text.isAsciiDigit c && c != '0' && rest.all isDigitOrBar

/-- A number below sixty in one or two digits. -/
def isSixtieth : Text → Bool
  | [c] => Text.isAsciiDigit c
  | [a, b] => '0' ≤ a && a ≤ '5' && Text.isAsciiDigit b
  | _ => false

/-- Whether a text is `head` and sixtieths behind colons, one or more. -/
def isSexagesimal (head : Text → Bool) (t : Text) : Bool :=
  match Text.splitOn ':' t with
  | first :: part :: parts => head first && (part :: parts).all isSixtieth
  | _ => false

/-- Whether a text is an integer: binary, octal, decimal, hexadecimal or sexagesimal. -/
def isInt (t : Text) : Bool :=
  match unsigned t with
  | '0' :: 'b' :: d :: rest => (d :: rest).all fun c => c == '0' || c == '1' || c == '_'
  | '0' :: 'x' :: d :: rest => (d :: rest).all fun c => Text.isAsciiHexDigit c || c == '_'
  | ['0'] => true
  | '0' :: rest => rest.all fun c => ('0' ≤ c && c ≤ '7') || c == '_'
  | t => isPositive t || isSexagesimal isPositive t

/-- An exponent: `e`, a sign and digits. -/
def isExponent : Text → Bool
  | e :: sign :: d :: rest =>
    (e == 'e' || e == 'E') && (sign == '+' || sign == '-') && (d :: rest).all Text.isAsciiDigit
  | _ => false

/-- What may follow the point of a float: digits and an exponent. -/
def isFraction (t : Text) : Bool :=
  let rest := t.dropWhile isDigitOrBar
  rest.isEmpty || isExponent rest

/-- Whether a text is a float. -/
def isFloat (t : Text) : Bool :=
  let body := unsigned t
  let whole := body.takeWhile (· != '.')
  match body.drop whole.length with
  | '.' :: fraction =>
    (isDigits whole && isFraction fraction) ||
      (isSexagesimal isDigits whole && fraction.all isDigitOrBar) ||
      (t.head? == some '.' && (fraction.head?.map Text.isAsciiDigit).getD false && isFraction fraction) ||
      infinityWords.contains body || nanWords.contains t
  | _ => false

/-- A time as it is written: a date, and perhaps a time of day with an offset. -/
structure WrittenTime where
  year : Nat
  month : Nat
  day : Nat
  time : Option (Nat × Nat × Nat)
  /-- The digits of the fraction of a second. -/
  fraction : Text
  /-- The offset from universal time in minutes. -/
  offset : Option Int

/-- The number of one or two digits that begin a text, and what follows it. -/
def shortNumber? : Text → Option (Nat × Text)
  | a :: b :: rest =>
    if Text.isAsciiDigit a && Text.isAsciiDigit b then
      some (Text.hexValue a * 10 + Text.hexValue b, rest)
    else if Text.isAsciiDigit a then some (Text.hexValue a, b :: rest)
    else none
  | [a] => if Text.isAsciiDigit a then some (Text.hexValue a, []) else none
  | [] => none

/-- The number of two digits that begin a text, and what follows it. -/
def twoDigits? (t : Text) : Option (Nat × Text) :=
  (shortNumber? t).filter fun (_, rest) => rest.length + 2 = t.length

/-- What follows a character that a text begins with. -/
def afterChar? (c : Char) : Text → Option Text
  | d :: rest => if c = d then some rest else none
  | [] => none

/-- The offset of a time that ends a text: blanks and `Z` or signed hours and minutes;
none inside when there is none. -/
def offset? (t : Text) : Option (Option Int) :=
  match t with
  | [] => some none
  | _ => match t.dropWhile fun c => c == ' ' || c == '\t' with
    | ['Z'] => some (some 0)
    | sign :: rest =>
      if sign = '+' || sign = '-' then do
        let (hours, rest) ← shortNumber? rest
        let signed (minutes : Nat) : Int := if sign = '-' then -(minutes : Int) else minutes
        match rest with
        | [] => return some (signed (hours * 60))
        | ':' :: rest =>
          let (minutes, rest) ← twoDigits? rest
          if rest.isEmpty then return some (signed (hours * 60 + minutes)) else none
        | _ => none
      else none
    | [] => none

/-- The time that is written in a text, if it is one. -/
def writtenTime? (t : Text) : Option WrittenTime := do
  let year := t.take 4
  if !(year.length = 4 && year.all Text.isAsciiDigit) then none
  let year := year.foldl (fun n c => n * 10 + Text.hexValue c) 0
  let (month, rest) ← shortNumber? (← afterChar? '-' (t.drop 4))
  let (day, rest) ← shortNumber? (← afterChar? '-' rest)
  match rest with
  | [] => return ⟨year, month, day, none, [], none⟩
  | c :: more =>
    let rest ←
      if c = 'T' || c = 't' then some more
      else if c = ' ' || c = '\t' then some (more.dropWhile fun c => c == ' ' || c == '\t')
      else none
    let (hour, rest) ← shortNumber? rest
    let (minute, rest) ← twoDigits? (← afterChar? ':' rest)
    let (second, rest) ← twoDigits? (← afterChar? ':' rest)
    let (fraction, rest) := match rest with
      | '.' :: rest => (rest.takeWhile Text.isAsciiDigit, rest.dropWhile Text.isAsciiDigit)
      | rest => ([], rest)
    return ⟨year, month, day, some (hour, minute, second), fraction, ← offset? rest⟩

/-- Whether a text is a time. A date alone has two digits for the month and for the day. -/
def isTimestamp (t : Text) : Bool :=
  match writtenTime? t with
  | some w => w.time.isSome || t.length == 10
  | none => false

/-- A text without the line feed that may end it. -/
def withoutFinalBreak (t : Text) : Text := if t.getLast? == some '\n' then t.dropLast else t

/-- Texts of a tag that no scalar can be without quotes. -/
def indicatorWords : List Text := [['!'], ['&'], ['*']]

/-- The tag of a text that says more than an empty one. -/
def Tag.ofWord (t : Text) : Tag :=
  if nullWords.contains t then .null
  else if (boolWords.lookup t).isSome then .bool
  else if isFloat t then .float
  else if isInt t then .int
  else if isTimestamp t then .timestamp
  else if t = ['<', '<'] then .merge
  else if t = ['='] then .value
  else if indicatorWords.contains t then .foreign "tag:yaml.org,2002:yaml".toList
  else .text

/-- The tag of a scalar that has none, by its text. A line feed at its end does not count,
unless there is nothing else. -/
def Tag.ofUntagged (t : Text) : Tag :=
  if t = ['\n'] then .text else Tag.ofWord (withoutFinalBreak t)

end Shorthand.Data.Yaml
