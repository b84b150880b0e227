/-
Texts stored as UTF-8. The strict reading refuses bytes that are no UTF-8; the
lenient one puts a replacement character for each longest piece that could have
begun a character.
-/
import Shorthand.Text.Class

namespace Shorthand.Text

abbrev Bytes := List UInt8

/-- The bytes that may follow a leading byte: how many, and the interval the first
of them lies in. The narrow intervals leave out overlong forms, surrogates and
what lies above the last code point. -/
def continuation? (lead : UInt8) : Option (Nat × UInt8 × UInt8) :=
  if lead < 0xC2 then none
  else if lead < 0xE0 then some (1, 0x80, 0xBF)
  else if lead = 0xE0 then some (2, 0xA0, 0xBF)
  else if lead = 0xED then some (2, 0x80, 0x9F)
  else if lead < 0xF0 then some (2, 0x80, 0xBF)
  else if lead = 0xF0 then some (3, 0x90, 0xBF)
  else if lead < 0xF4 then some (3, 0x80, 0xBF)
  else if lead = 0xF4 then some (3, 0x80, 0x8F)
  else none

/-- The payload of a leading byte that announces `more` further bytes. -/
def leadPayload (more : Nat) (lead : UInt8) : Nat :=
  lead.toNat % (if more = 1 then 0x20 else if more = 2 then 0x10 else 0x08)

/-- Reads up to `more` continuation bytes, the first of them in `lo` to `hi`. The
answer is what was read so far, how many bytes that took, and whether all were there. -/
def continueChar (code taken : Nat) : (more : Nat) → (lo hi : UInt8) → Bytes → Nat × Nat × Bool
  | 0, _, _, _ => (code, taken, true)
  | _ + 1, _, _, [] => (code, taken, false)
  | more + 1, lo, hi, b :: rest =>
    if lo ≤ b && b ≤ hi then
      continueChar (code * 64 + b.toNat % 64) (taken + 1) more 0x80 0xBF rest
    else (code, taken, false)

/-- The character at the front of `b :: rest`, if one is well formed there, and
how many bytes of `rest` belong to it or to its broken beginning. -/
def frontChar (b : UInt8) (rest : Bytes) : Option Char × Nat :=
  if b < 0x80 then (some (Char.ofNat b.toNat), 0)
  else match continuation? b with
    | none => (none, 0)
    | some (more, lo, hi) =>
      let (code, taken, complete) := continueChar (leadPayload more b) 0 more lo hi rest
      (if complete then some (Char.ofNat code) else none, taken)

/-- The text of well-formed UTF-8. -/
def ofUtf8? : Bytes → Option Text
  | [] => some []
  | b :: rest =>
    match frontChar b rest with
    | (some c, taken) => (ofUtf8? (rest.drop taken)).map (c :: ·)
    | (none, _) => none
termination_by bytes => bytes.length
decreasing_by simp only [List.length_drop, List.length_cons]; omega

/-- The text of any bytes, each broken piece read as U+FFFD. -/
def ofUtf8Lenient : Bytes → Text
  | [] => []
  | b :: rest =>
    let front := frontChar b rest
    front.1.getD '\uFFFD' :: ofUtf8Lenient (rest.drop front.2)
termination_by bytes => bytes.length
decreasing_by simp only [List.length_drop, List.length_cons]; omega

/-- The UTF-8 bytes of one character. -/
def utf8Char (c : Char) : Bytes :=
  let n := c.toNat
  if n < 0x80 then [n.toUInt8]
  else if n < 0x800 then [(0xC0 + n / 64).toUInt8, (0x80 + n % 64).toUInt8]
  else if n < 0x10000 then
    [(0xE0 + n / 4096).toUInt8, (0x80 + n / 64 % 64).toUInt8, (0x80 + n % 64).toUInt8]
  else
    [(0xF0 + n / 262144).toUInt8, (0x80 + n / 4096 % 64).toUInt8, (0x80 + n / 64 % 64).toUInt8,
     (0x80 + n % 64).toUInt8]

def utf8 (t : Text) : Bytes := t.flatMap utf8Char

end Shorthand.Text
