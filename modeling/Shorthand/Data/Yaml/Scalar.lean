/-
Scalars of YAML by their tags. A tag that is written out takes more texts than those that
have it without being marked: digits of any script, blanks around a number, and a second
sign or prefix.
-/
import Shorthand.Data.ReadFault
import Shorthand.Data.Value
import Shorthand.Data.Yaml.Plain
import Shorthand.Text.Lowercase

namespace Shorthand.Data.Yaml

/-! ### Numbers -/

def isAsciiBlank (c : Char) : Bool := c == ' ' || ('\t' ≤ c && c ≤ '\r')

/-- A text with ASCII digits for those of other scripts and spaces for blanks beyond ASCII,
without the ASCII blanks around it. -/
def numeral (t : Text) : Text :=
  let t := t.map fun c =>
    if c.toNat < 128 then c
    else if Text.isBlank c then ' '
    else ((Text.digitValue? c).map fun d => Char.ofNat ('0'.toNat + d)).getD c
  ((t.dropWhile isAsciiBlank).reverse.dropWhile isAsciiBlank).reverse

def isNegative (t : Text) : Bool := t.head? == some '-'

/-- The number of digits to a base, if there are any and they are all below it. -/
def natural? (base : Nat) (digits : Text) : Option Nat :=
  if digits.isEmpty || !digits.all (fun c => Text.isAsciiHexDigit c && Text.hexValue c < base)
  then none
  else some (digits.foldl (fun n c => n * base + Text.hexValue c) 0)

/-- The letter of the prefix that digits to a base may have. -/
def baseLetter? : (base : Nat) → Option Char
  | 2 => some 'b'
  | 8 => some 'o'
  | 16 => some 'x'
  | _ => none

/-- Digits to a base without the prefix of that base. -/
def withoutBase (base : Nat) (digits : Text) : Text :=
  match digits, baseLetter? base with
  | '0' :: c :: rest, some letter => if c.toLower = letter then rest else digits
  | _, _ => digits

/-- The integer that a text writes to a base, with a sign or without. Decimal digits have a
greatest number. -/
def integer? (base : Nat) (t : Text) : Option Int :=
  let t := numeral t
  let digits := withoutBase base (unsigned t)
  if base = 10 && Text.maxNumberLength < digits.length then none
  else (natural? base digits).map fun n => if isNegative t then -(n : Int) else n

def withoutBars (t : Text) : Text := t.filter (· != '_')

/-- A list of sexagesimal digits as one number. -/
def sexagesimal (digits : List Int) : Int := digits.foldl (fun n d => n * 60 + d) 0

/-- The integer that a text without sign and underscores stands for. -/
def magnitude? : Text → Option Int
  | ['0'] => some 0
  | '0' :: 'b' :: rest => integer? 2 rest
  | '0' :: 'x' :: rest => integer? 16 rest
  | '0' :: rest => integer? 8 ('0' :: rest)
  | t =>
    if t.contains ':' then ((Text.splitOn ':' t).mapM (integer? 10)).map sexagesimal
    else integer? 10 t

def int (t : Text) : Except ReadFault Int :=
  let t := withoutBars t
  if (unsigned t).isEmpty then .error (.obstacle .blankNumber)
  else (orMalformed (magnitude? (unsigned t))).map fun n => if isNegative t then -n else n

/-- The number that digits, decimals and an exponent write, or one of the words for what is
no finite number. The text has no capitals. -/
def unsignedDecimal? (negative : Bool) (t : Text) : Option Binary64 :=
  if t = "inf".toList || t = "infinity".toList then some (.infinite negative)
  else if t = "nan".toList then some .nan
  else
    let whole := t.takeWhile Text.isAsciiDigit
    let rest := t.drop whole.length
    let (decimals, rest) := match rest with
      | '.' :: rest => (rest.takeWhile Text.isAsciiDigit, rest.dropWhile Text.isAsciiDigit)
      | rest => ([], rest)
    let exponent? : Option Int := match rest with
      | [] => some 0
      | 'e' :: rest =>
        (natural? 10 (unsigned rest)).map fun n => if isNegative rest then -(n : Int) else n
      | _ => none
    match natural? 10 (whole ++ decimals), exponent? with
    | some digits, some e => some (.ofDecimal negative digits (e - decimals.length))
    | _, _ => none

/-- The float that a text without capitals writes. -/
def decimal? (t : Text) : Option Binary64 :=
  let t := numeral t
  unsignedDecimal? (isNegative t) (unsigned t)

/-- Sexagesimal parts, the last of them first, added up from `unit` on. The unit is rounded
to a float before it is multiplied. -/
def sumSixtieths (sum : Binary64) : (unit : Nat) → List Binary64 → Except ReadFault Binary64
  | _, [] => .ok sum
  | unit, x :: xs => match (Binary64.ofFraction false unit 1).toInt? with
    | none => .error (.obstacle .unitTooLarge)
    | some n => sumSixtieths (sum.plus (x.times n.natAbs)) (unit * 60) xs

def zero : Binary64 := .finite false 0 Binary64.leastExponent

def float (t : Text) : Except ReadFault Binary64 := do
  let t := Text.lower (withoutBars t)
  if t.isEmpty then throw (.obstacle .blankNumber)
  let body := unsigned t
  let x ←
    if body = ".inf".toList then .ok (.infinite false)
    else if body = ".nan".toList then .ok .nan
    else if body.contains ':' then do
      let parts ← orMalformed ((Text.splitOn ':' body).mapM decimal?)
      sumSixtieths zero 1 parts.reverse
    else orMalformed (decimal? body)
  return if isNegative t then x.neg else x

/-! ### Other scalars -/

def bool (t : Text) : Except ReadFault Bool :=
  let t := Text.lower t
  match boolWords.lookup t with
  | some b => .ok b
  | none => .error (.obstacle (.notBool t))

/-- The microseconds that the digits of a fraction of a second stand for; further digits do
not count. -/
def microsOf (fraction : Text) : Nat :=
  ((fraction ++ List.replicate 6 '0').take 6).foldl (fun n c => n * 10 + Text.hexValue c) 0

/-- The date or the moment that is written, unless there is no such one. -/
def WrittenTime.toScalar? (w : WrittenTime) : Option Scalar :=
  let date : Date := ⟨w.year, w.month, w.day⟩
  match w.time with
  | none => if date.isReal then some (.date date) else none
  | some (hour, minute, second) =>
    let moment : Moment := ⟨date, hour, minute, second, microsOf w.fraction, w.offset⟩
    if moment.isReal then some (.moment moment) else none

def time (t : Text) : Except ReadFault Scalar :=
  match writtenTime? (withoutFinalBreak t) with
  | none => .error (.obstacle .notTime)
  | some w => orMalformed w.toScalar?

/-- The value of a digit to base 64. -/
def base64Digit? (c : Char) : Option Nat :=
  if 'A' ≤ c ∧ c ≤ 'Z' then some (c.toNat - 'A'.toNat)
  else if 'a' ≤ c ∧ c ≤ 'z' then some (c.toNat - 'a'.toNat + 26)
  else if '0' ≤ c ∧ c ≤ '9' then some (c.toNat - '0'.toNat + 52)
  else if c = '+' then some 62
  else if c = '/' then some 63
  else none

/-- The bytes written to base 64, `place` digits of a group of four having been read, which
leave over the bits `left`, and `fillers` fillers since the last of them. Other characters
are skipped, as are fillers that do not fill a group up; one that does ends the bytes. -/
def base64From (place left fillers : Nat) : Text → Option (List UInt8)
  | [] => if place = 0 then some [] else none
  | c :: rest =>
    if c = '=' then
      if place < 2 then base64From place left fillers rest
      else if 4 ≤ place + fillers + 1 then some []
      else base64From place left (fillers + 1) rest
    else match base64Digit? c, place with
      | none, _ => base64From place left fillers rest
      | some d, 0 => base64From 1 d 0 rest
      | some d, 1 => (base64From 2 (d % 16) 0 rest).map ((left * 4 + d / 16).toUInt8 :: ·)
      | some d, 2 => (base64From 3 (d % 4) 0 rest).map ((left * 16 + d / 4).toUInt8 :: ·)
      | some d, _ => (base64From 0 0 0 rest).map ((left * 64 + d).toUInt8 :: ·)

def binary (t : Text) : Except ReadFault Scalar :=
  if t.all (·.toNat < 128) then (orMalformed (base64From 0 0 0 t)).map .bytes
  else .error .malformed

/-- The scalar a text is by its tag. -/
def scalar (tag : Tag) (t : Text) : Except ReadFault Scalar :=
  match tag with
  | .text => .ok (.text t)
  | .null => .ok .null
  | .bool => (bool t).map .bool
  | .int => (int t).map .int
  | .float => (float t).map .float
  | .timestamp => time t
  | .binary => binary t
  | _ => .error .malformed

end Shorthand.Data.Yaml
