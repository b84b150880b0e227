/-
Binary floating-point numbers of 64 bits: a sign, a significand below 2^53 and a
power of two. They are read from a decimal by rounding to the nearest, a tie going
to the even significand, and written with the fewest digits that read back.
-/
import Shorthand.Text.Basic

namespace Shorthand.Data

/-- A floating-point number. A finite one is `significand * 2 ^ exponent`, with a
significand below 2^53 that is at least 2^52 unless the exponent is the least. -/
inductive Binary64 where
  | nan
  | infinite (negative : Bool)
  | finite (negative : Bool) (significand : Nat) (exponent : Int)
  deriving DecidableEq, Repr, Inhabited

namespace Binary64

def leastExponent : Int := -1074

def greatestExponent : Int := 971

/-- `numerator / denominator` rounded to an integer, a tie to the even one. -/
def roundHalfEven (numerator denominator : Nat) : Nat :=
  let q := numerator / denominator
  let r := numerator % denominator
  if 2 * r < denominator then q
  else if denominator < 2 * r then q + 1
  else if q % 2 = 0 then q else q + 1

/-- `numerator / denominator / 2 ^ exponent` as a fraction. -/
def scaled (numerator denominator : Nat) (exponent : Int) : Nat × Nat :=
  match exponent with
  | .ofNat e => (numerator, denominator * Nat.pow 2 e)
  | .negSucc e => (numerator * Nat.pow 2 (e + 1), denominator)

/-- The exponent at which the fraction has a significand of 53 bits, or the least
exponent if that is greater. -/
def exponentFor (numerator denominator : Nat) : Int :=
  let guess : Int := (numerator.log2 : Int) - denominator.log2 - 52
  let (n, d) := scaled numerator denominator guess
  let exact := if n / d < Nat.pow 2 52 then guess - 1 else guess
  max exact leastExponent

/-- The number nearest to a fraction. -/
def ofFraction (negative : Bool) (numerator denominator : Nat) : Binary64 :=
  if numerator = 0 then .finite negative 0 leastExponent
  else
    let e := exponentFor numerator denominator
    let (n, d) := scaled numerator denominator e
    let m := roundHalfEven n d
    let (m, e) := if m = Nat.pow 2 53 then (Nat.pow 2 52, e + 1) else (m, e)
    if greatestExponent < e then .infinite negative else .finite negative m e

/-- The number nearest to `digits * 10 ^ exponent`. Far outside the range of finite
numbers the answer does not depend on the digits, so no power is computed. -/
def ofDecimal (negative : Bool) (digits : Nat) (exponent : Int) : Binary64 :=
  let magnitude : Int := (Text.ofNat digits).length + exponent
  if digits = 0 || magnitude < -330 then .finite negative 0 leastExponent
  else if 310 < magnitude then .infinite negative
  else match exponent with
    | .ofNat e => ofFraction negative (digits * Nat.pow 10 e) 1
    | .negSucc e => ofFraction negative digits (Nat.pow 10 (e + 1))

/-- The integer a number is equal to, if there is one. -/
def toInt? : Binary64 → Option Int
  | .finite negative m (.ofNat e) =>
    let n := m * Nat.pow 2 e
    some (if negative then -n else n)
  | .finite negative m (.negSucc e) =>
    let d := Nat.pow 2 (e + 1)
    if m % d = 0 then some (if negative then -((m / d : Nat) : Int) else (m / d : Nat)) else none
  | _ => none

def isZero : Binary64 → Bool
  | .finite _ 0 _ => true
  | _ => false

/-- A finite number other than zero as a fraction. -/
def fraction (significand : Nat) : Int → Nat × Nat
  | .ofNat e => (significand * Nat.pow 2 e, 1)
  | .negSucc e => (significand, Nat.pow 2 (e + 1))

/-- The number with its sign turned. -/
def neg : Binary64 → Binary64
  | .nan => .nan
  | .infinite negative => .infinite !negative
  | .finite negative m e => .finite (!negative) m e

/-- The rounded product of a number and a natural number other than zero. -/
def times : Binary64 → Nat → Binary64
  | .finite negative m e, n =>
    let (a, b) := fraction m e
    ofFraction negative (a * n) b
  | x, _ => x

/-- The rounded sum of two numbers. A sum of zero is negative when both numbers are. -/
def plus : Binary64 → Binary64 → Binary64
  | .finite s m e, .finite s' m' e' =>
    let (a, b) := fraction m e
    let (a', b') := fraction m' e'
    let signed (negative : Bool) (n : Nat) : Int := if negative then -(n : Int) else n
    let sum := signed s (a * b') + signed s' (a' * b)
    ofFraction (if sum = 0 then s && s' else sum < 0) sum.natAbs (b * b')
  | .nan, _ => .nan
  | _, .nan => .nan
  | .infinite s, .infinite s' => if s = s' then .infinite s else .nan
  | .infinite s, _ => .infinite s
  | _, .infinite s => .infinite s

/-- The power of ten just above a fraction: the least `p` with `n / d < 10 ^ p`. -/
def decimalPoint (n d : Nat) : Int :=
  let guess : Int := (Text.ofNat n).length - (Text.ofNat d).length
  let reaches (p : Int) : Bool := match p with
    | .ofNat p => n < d * Nat.pow 10 p
    | .negSucc p => n * Nat.pow 10 (p + 1) < d
  if reaches guess then guess else guess + 1

/-- The two neighbours of a fraction among the decimals with `count` digits, nearest
first, as multiples of `10 ^ (point - count)`. -/
def neighbours (n d : Nat) (point : Int) (count : Nat) : List Nat :=
  let (n, d) := match point - (count : Int) with
    | .ofNat e => (n, d * Nat.pow 10 e)
    | .negSucc e => (n * Nat.pow 10 (e + 1), d)
  let q := n / d
  let r := n % d
  if 2 * r < d || (2 * r = d && q % 2 = 0) then [q, q + 1] else [q + 1, q]

/-- The fewest digits, with the place of the point before them, that read back. -/
def shortestFrom (x : Binary64) (n d : Nat) (point : Int) : (tries count : Nat) → Nat × Int
  | 0, count => ((neighbours n d point count).headD 0, point - count)
  | tries + 1, count =>
    match (neighbours n d point count).find? fun digits =>
        ofDecimal false digits (point - count) == x with
    | some digits => (digits, point - count)
    | none => shortestFrom x n d point tries (count + 1)

/-- The digits of a decimal without trailing zeros, and the place of the point
relative to their beginning. -/
def significantDigits (digits : Nat) (exponent : Int) : Text × Int :=
  let written := Text.ofNat digits
  ((written.reverse.dropWhile (· == '0')).reverse, exponent + written.length)

/-- Decimals from 10^-4 to below 10^16 are written positionally, with at least one
digit on each side of the point, others with an exponent of at least two digits. -/
def layout (digits : Text) (point : Int) : Text :=
  if -4 < point ∧ point ≤ 16 then
    if point ≤ 0 then '0' :: '.' :: List.replicate (-point).toNat '0' ++ digits
    else
      let whole := point.toNat
      let integer := digits.take whole ++ List.replicate (whole - digits.length) '0'
      let decimals := digits.drop whole
      integer ++ '.' :: (if decimals.isEmpty then ['0'] else decimals)
  else
    let mantissa := match digits with
      | [] => []
      | [c] => [c]
      | c :: more => c :: '.' :: more
    let e := point - 1
    mantissa ++ 'e' :: (if e < 0 then '-' else '+') :: Text.padded 2 e.natAbs

/-- The text of a number: the shortest that reads back. -/
def toText : Binary64 → Text
  | .nan => ['n', 'a', 'n']
  | .infinite negative => (if negative then ['-'] else []) ++ ['i', 'n', 'f']
  | .finite negative m e =>
    let sign := if negative then ['-'] else []
    if m = 0 then sign ++ ['0', '.', '0']
    else
      let (n, d) := fraction m e
      let (digits, exponent) := shortestFrom (.finite false m e) n d (decimalPoint n d) 17 1
      let (written, point) := significantDigits digits exponent
      sign ++ layout written point

end Binary64

end Shorthand.Data
