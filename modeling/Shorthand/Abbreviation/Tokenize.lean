/-
Cutting a markup abbreviation into tokens. A node is a run of names, classes, ids,
attribute blocks, text blocks and escaped characters; what lies between the nodes are
operators, group brackets and repeat counts.
-/
import Shorthand.Abbreviation.Attributes
import Shorthand.Abbreviation.Bracket
import Shorthand.Abbreviation.Token

namespace Shorthand.Abbreviation

open Text (isAlphanumeric isDigit)

/-- The greatest repeat count. -/
def maxRepeat : Nat := 100

def isNameChar (c : Char) : Bool :=
  isAlphanumeric c || ['_', '-', ':', '$', '@', '%'].contains c

/-- The length of the run of node parts a text begins with; `position` is where the
text stands in the abbreviation. -/
def nodeLength (position : Nat) : Text → Except Malformed Nat
  | [] => .ok 0
  | '\\' :: _ :: rest => (nodeLength (position + 2) rest).map (· + 2)
  | c :: rest =>
    if isNameChar c || c = '.' || c = '#' then (nodeLength (position + 1) rest).map (· + 1)
    else if c = '[' then
      match Bracket.square.closing? (c :: rest) with
      | none => .error (.unclosed c position)
      | some last =>
        if isAttributeList (rest.take (last - 1)) then
          (nodeLength (position + last + 1) (rest.drop last)).map (· + (last + 1))
        else .error (.malformedAttributes position)
    else if c = '{' then
      match Bracket.curly.closing? (c :: rest) with
      | none => .error (.unclosed c position)
      | some last => (nodeLength (position + last + 1) (rest.drop last)).map (· + (last + 1))
    else if c = ']' || c = '}' then .error (.unmatched c position)
    else .ok 0
termination_by t => t.length
decreasing_by all_goals simp; try omega

/-- Whether the digits after a `*` are a repeat count: none at all, or a number that
is not too large. -/
def checkCount (digits : Text) : Except LexicalFault Unit :=
  if digits.isEmpty then .ok ()
  else match Text.number? digits with
    | none => .error (.unreadableCount digits)
    | some n => if maxRepeat < n then .error (.malformed (.repeatTooLarge digits)) else .ok ()

/-- The tokens of the part of an abbreviation that stands at `position`. -/
def tokensAt (position : Nat) : Text → Except LexicalFault (List Token)
  | [] => .ok []
  | c :: rest =>
    if c = '>' || c = '+' then
      (tokensAt (position + 1) rest).map (⟨.operator, [c]⟩ :: ·)
    else if c = '^' then
      let more := rest.takeWhile (· == '^')
      (tokensAt (position + 1 + more.length) (rest.drop more.length)).map
        (⟨.operator, c :: more⟩ :: ·)
    else if c = '(' then (tokensAt (position + 1) rest).map (⟨.opening, [c]⟩ :: ·)
    else if c = ')' then (tokensAt (position + 1) rest).map (⟨.closing, [c]⟩ :: ·)
    else if c = '*' then
      let digits := rest.takeWhile isDigit
      match checkCount digits with
      | .error fault => .error fault
      | .ok () =>
        (tokensAt (position + 1 + digits.length) (rest.drop digits.length)).map
          (⟨.repetition, c :: digits⟩ :: ·)
    else match nodeLength position (c :: rest) with
      | .error why => .error (.malformed why)
      | .ok 0 => .error (.malformed (.unexpected c position))
      | .ok (n + 1) =>
        (tokensAt (position + n + 1) (rest.drop n)).map (⟨.node, c :: rest.take n⟩ :: ·)
termination_by t => t.length
decreasing_by all_goals simp; try omega

/-- The tokens of a markup abbreviation. -/
def tokenize (t : Text) : Except LexicalFault (List Token) := tokensAt 0 t

end Shorthand.Abbreviation
