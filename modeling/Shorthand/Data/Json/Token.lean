/-
The tokens of JSON: punctuation and scalars. Beside the numbers of the standard, `NaN`,
`Infinity` and `-Infinity` are read. Blanks are the four ASCII ones only.
-/
import Shorthand.Data.Value

namespace Shorthand.Data.Json

inductive Token where
  | openBrace | closeBrace | openBracket | closeBracket | colon | comma
  | scalar (s : Scalar)
  /-- The place from which on a text has no tokens. -/
  | broken
  deriving DecidableEq, Repr

def punctuation? : Char → Option Token
  | '\x7b' => some .openBrace
  | '\x7d' => some .closeBrace
  | '[' => some .openBracket
  | ']' => some .closeBracket
  | ':' => some .colon
  | ',' => some .comma
  | _ => none

def isJsonBlank (c : Char) : Bool := c == ' ' || c == '\t' || c == '\n' || c == '\r'

/-- The character a one-letter escape stands for. -/
def escape? : Char → Option Char
  | '"' => some '"'
  | '\\' => some '\\'
  | '/' => some '/'
  | 'b' => some '\x08'
  | 'f' => some '\x0c'
  | 'n' => some '\n'
  | 'r' => some '\r'
  | 't' => some '\t'
  | _ => none

/-- The number of four hexadecimal digits. -/
def hexQuad? (t : Text) : Option Nat :=
  if t.length = 4 && t.all Text.isAsciiHexDigit then
    some (t.foldl (fun n c => n * 16 + Text.hexValue c) 0)
  else none

def isHighSurrogate (n : Nat) : Bool := 0xD800 ≤ n && n < 0xDC00

def isLowSurrogate (n : Nat) : Bool := 0xDC00 ≤ n && n < 0xE000

/-- The character of a code unit. Half of a surrogate pair is no character; a reader of code units
would keep it as it is, and here U+FFFD takes its place, so that two keys which differ in such halves
only become one. -/
def charOfUnit (n : Nat) : Char :=
  if isHighSurrogate n || isLowSurrogate n then '\uFFFD' else Char.ofNat n

/-- The low half of a surrogate pair that a text begins with. -/
def lowHalf? : Text → Option Nat
  | '\\' :: 'u' :: rest => (hexQuad? (rest.take 4)).filter isLowSurrogate
  | _ => none

/-- The rest of a string after its opening quote, and what follows it. Control
characters have to be escaped. -/
def stringEnd? : Text → Option (Text × Text)
  | [] => none
  | '\\' :: 'u' :: rest =>
    match hexQuad? (rest.take 4) with
    | none => none
    | some unit =>
      let left := rest.drop 4
      match if isHighSurrogate unit then lowHalf? left else none with
      | some low =>
        let c := Char.ofNat (0x10000 + (unit - 0xD800) * 0x400 + (low - 0xDC00))
        (stringEnd? (left.drop 6)).map fun (t, after) => (c :: t, after)
      | none => (stringEnd? left).map fun (t, after) => (charOfUnit unit :: t, after)
  | '\\' :: e :: rest =>
    match escape? e with
    | none => none
    | some c => (stringEnd? rest).map fun (t, after) => (c :: t, after)
  | c :: rest =>
    if c = '"' then some ([], rest)
    else if c = '\\' || c.toNat < 0x20 then none
    else (stringEnd? rest).map fun (t, after) => (c :: t, after)
termination_by t => t.length
decreasing_by all_goals simp; try omega

/-- The digits that begin a text, if there are any, and what follows them. -/
def digits? (t : Text) : Option (Text × Text) :=
  let digits := t.takeWhile Text.isAsciiDigit
  if digits.isEmpty then none else some (digits, t.drop digits.length)

/-- The decimals behind a point that begin a text, none when there is no digit. -/
def decimals (t : Text) : Text × Text :=
  match t with
  | '.' :: rest => (digits? rest).getD ([], t)
  | _ => ([], t)

/-- The exponent that begins a text, if there is one. -/
def exponent? (t : Text) : Option (Int × Text) :=
  match t with
  | e :: rest =>
    if e = 'e' || e = 'E' then
      let (negative, rest) := match rest with
        | '-' :: rest => (true, rest)
        | '+' :: rest => (false, rest)
        | rest => (false, rest)
      (digits? rest).map fun (digits, left) =>
        let n : Int := digits.foldl (fun n c => n * 10 + Text.hexValue c) 0
        (if negative then -n else n, left)
    else none
  | [] => none

/-- The integer part that begins a text: a zero, or digits that begin with another. -/
def integerPart? : Text → Option (Text × Text)
  | '0' :: rest => some (['0'], rest)
  | t => digits? t

def naturalOf (digits : Text) : Nat := digits.foldl (fun n c => n * 10 + Text.hexValue c) 0

/-- The number that begins a text. Without decimals and exponent it is an integer, which
has a greatest length. -/
def number? (t : Text) : Option (Scalar × Text) :=
  let (negative, unsigned) := match t with
    | '-' :: rest => (true, rest)
    | t => (false, t)
  match integerPart? unsigned with
  | none => none
  | some (whole, rest) =>
    let (fraction, rest) := decimals rest
    match exponent? rest with
    | some (e, rest) =>
      some (.float (.ofDecimal negative (naturalOf (whole ++ fraction)) (e - fraction.length)), rest)
    | none =>
      if fraction.isEmpty then
        if Text.maxNumberLength < whole.length then none
        else
          let n : Int := naturalOf whole
          some (.int (if negative then -n else n), rest)
      else some (.float (.ofDecimal negative (naturalOf (whole ++ fraction)) (-fraction.length)), rest)

/-- The words that stand for a scalar. -/
def words : List (Text × Scalar) :=
  [("null".toList, .null), ("true".toList, .bool true), ("false".toList, .bool false),
   ("NaN".toList, .float .nan), ("Infinity".toList, .float (.infinite false)),
   ("-Infinity".toList, .float (.infinite true))]

/-- The word that begins a text. -/
def word? (t : Text) : Option (Scalar × Text) :=
  words.findSome? fun (w, s) => (Text.after? w t).map (s, ·)

/-- The token that begins a text without leading blanks, and what follows it. -/
def front? : Text → Option (Token × Text)
  | [] => none
  | c :: rest =>
    match punctuation? c with
    | some token => some (token, rest)
    | none =>
      if c = '"' then (stringEnd? rest).map fun (t, after) => (.scalar (.text t), after)
      else ((word? (c :: rest)).or (number? (c :: rest))).map fun (s, after) => (.scalar s, after)

/-- The tokens of a text up to its end, or up to the first thing that is no token. Each
takes at least one character, so that `fuel` characters hold at most `fuel` of them. -/
def tokensWithin : (fuel : Nat) → Text → List Token
  | fuel, t =>
    match t.dropWhile isJsonBlank, fuel with
    | [], _ => []
    | _, 0 => [.broken]
    | c :: rest, fuel + 1 =>
      match front? (c :: rest) with
      | none => [.broken]
      | some (token, after) => token :: tokensWithin fuel after

def tokens (t : Text) : List Token := tokensWithin t.length t

end Shorthand.Data.Json
