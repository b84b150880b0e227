/-
The lower-case form of a text. A character goes to its simple lower-case form,
with two exceptions: the dotted capital I becomes two characters, and a capital
sigma at the end of a word becomes the final one.
-/
import Shorthand.Text.Casing
import Shorthand.Text.Class

namespace Shorthand.Text

/-- The simple lower-case form. -/
def lowerChar (c : Char) : Char :=
  match lowerRuns.find? fun (lo, hi, step, _) =>
      lo ≤ c.toNat && c.toNat ≤ hi && (c.toNat - lo) % step == 0 with
  | some (_, _, _, offset) => Char.ofNat (c.toNat + offset).toNat
  | none => c

/-- Whether the first character that is not case-ignorable is a cased letter. -/
def meetsCased (t : Text) : Bool :=
  match t.dropWhile caseIgnorables.contains with
  | [] => false
  | c :: _ => casedLetters.contains c

/-- A capital sigma is final when a cased letter comes before it and none after
it, case-ignorable characters being skipped on both sides. -/
def lowerSigma (preceding following : Text) : Char :=
  if meetsCased preceding && !meetsCased following then 'ς' else 'σ'

/-- The lower-case form of a text after `preceding`, which is given in reverse. -/
def lowerAfter (preceding : Text) : Text → Text
  | [] => []
  | c :: rest =>
    (if c = 'Σ' then [lowerSigma preceding rest]
      else if c = 'İ' then ['i', '\u0307']
      else [lowerChar c]) ++ lowerAfter (c :: preceding) rest

def lower (t : Text) : Text := lowerAfter [] t

end Shorthand.Text
