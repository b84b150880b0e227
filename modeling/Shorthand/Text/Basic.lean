/-
Cutting, trimming and reading texts.
-/
import Shorthand.Text.Class

namespace Shorthand.Text

/-- The text without the leading white space. -/
def trimStart (t : Text) : Text := t.dropWhile isBlank

/-- The text without the trailing white space. -/
def trimEnd (t : Text) : Text := (t.reverse.dropWhile isBlank).reverse

def trim (t : Text) : Text := trimEnd (trimStart t)

/-- The pieces between the separators; a text without one is a single piece. -/
def splitOn (sep : Char) : Text → List Text
  | [] => [[]]
  | c :: rest =>
    if c = sep then [] :: splitOn sep rest
    else match splitOn sep rest with
      | [] => [[c]]
      | piece :: pieces => (c :: piece) :: pieces

/-- The pieces with the separator between each two. -/
def joinWith (sep : Text) (pieces : List Text) : Text := sep.intercalate pieces

/-- The beginning of a text up to an index; a negative index counts from the end. -/
def upTo (t : Text) : Int → Text
  | .ofNat n => t.take n
  | .negSucc n => t.take (t.length - (n + 1))

/-- What follows `lead` in a text that begins with it. -/
def after? : (lead t : Text) → Option Text
  | [], t => some t
  | _ :: _, [] => none
  | p :: lead, c :: t => if p = c then after? lead t else none

/-- Code-point order: the first difference decides, and a beginning comes before
what it begins. -/
def before : Text → Text → Bool
  | [], [] => false
  | [], _ :: _ => true
  | _ :: _, [] => false
  | a :: s, b :: t => a.toNat < b.toNat || (a == b && before s t)

/-- The decimal text of a natural number. -/
def ofNat (n : Nat) : Text := Nat.toDigits 10 n

/-- The decimal text of an integer. -/
def ofInt : Int → Text
  | .ofNat n => ofNat n
  | .negSucc n => '-' :: ofNat (n + 1)

/-- The longest run of digits that is read as a number. -/
def maxNumberLength : Nat := 4300

/-- The number written by decimal digits of any script. There is none when the
text is empty, holds another character, or has more digits than are read. -/
def number? (t : Text) : Option Nat :=
  if t.isEmpty || maxNumberLength < t.length then none
  else t.foldlM (fun n c => (digitValue? c).map (n * 10 + ·)) 0

/-- Lower-case hexadecimal digits, padded with zeros to `width`. -/
def hex (width n : Nat) : Text :=
  let digits := Nat.toDigits 16 n
  List.replicate (width - digits.length) '0' ++ digits

/-- Decimal digits, padded with zeros to `width`. -/
def padded (width n : Nat) : Text :=
  List.replicate (width - (ofNat n).length) '0' ++ ofNat n

end Shorthand.Text
