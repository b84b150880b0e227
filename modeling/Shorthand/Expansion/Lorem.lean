/-
Filler text with modifiers. The engine turns a `lorem` node into plain text and drops
its classes, ids and attributes, so that these are moved to an element around it:
`lorem10.item` becomes `.item>lorem10`.
-/
import Shorthand.Text.Basic

namespace Shorthand.Expansion.Lorem

open Text (isDecimal isFoldedAsciiLetter isWordChar)

/-- A lorem node with modifiers, and how much of the text it takes. -/
structure Match where
  name : Text
  modifiers : Text
  repetition : Text
  deriving DecidableEq, Repr

def Match.length (m : Match) : Nat :=
  m.name.length + m.modifiers.length + m.repetition.length

/-- The end of a name `lorem` in any letter case that begins a text. -/
def afterLorem? (t : Text) : Option Text :=
  if (t.take 5).map Char.toLower = "lorem".toList then some (t.drop 5) else none

/-- The length of a lorem name: `lorem`, letters, digits, and a second number behind a
dash. -/
def nameLength? (t : Text) : Option Nat :=
  (afterLorem? t).map fun rest =>
    let rest := (rest.dropWhile isFoldedAsciiLetter).dropWhile isDecimal
    let rest := match rest with
      | '-' :: more => more.dropWhile isDecimal
      | rest => rest
    t.length - rest.length

def isModifierChar (c : Char) : Bool := isWordChar c || c == '$' || c == '@' || c == '-'

/-- The length of the class, id or attribute block that begins a text. -/
def modifierLength? : Text → Option Nat
  | '[' :: rest =>
    let inside := rest.takeWhile (· != ']')
    if inside.length < rest.length then some (inside.length + 2) else none
  | c :: rest =>
    let name := rest.takeWhile isModifierChar
    if (c = '.' || c = '#') && !name.isEmpty then some (name.length + 1) else none
  | [] => none

/-- The length of the run of modifiers that begins a text. -/
def modifiersLength (t : Text) : Nat :=
  match modifierLength? t with
  | some (n + 1) => if t.isEmpty then 0 else n + 1 + modifiersLength (t.drop (n + 1))
  | _ => 0
termination_by t.length
decreasing_by
  rename_i h
  have : t.length ≠ 0 := by simpa using h
  simp; omega

/-- Whether a node may end here: at the end, or before what joins or closes it. One
line feed may stand before the end. -/
def endsNode : Text → Bool
  | [] => true
  | ['\n'] => true
  | c :: _ => c == '+' || c == '^' || c == ')'

/-- The lorem node with modifiers that begins a text. -/
def match? (t : Text) : Option Match :=
  match nameLength? t with
  | none => none
  | some n =>
    let rest := t.drop n
    let m := modifiersLength rest
    let afterModifiers := rest.drop m
    let repetition := match afterModifiers with
      | '*' :: more => '*' :: more.takeWhile isDecimal
      | _ => []
    if 0 < m && endsNode (afterModifiers.drop repetition.length) then
      some ⟨t.take n, rest.take m, repetition⟩
    else none

/-- Whether a node may begin after a character. -/
def beginsNode (c : Char) : Bool := c == '>' || c == '+' || c == '^' || c == '('

/-- The modifiers and the repetition as an element around the name. -/
def Match.element (m : Match) : Text := m.modifiers ++ m.repetition ++ '>' :: m.name

/-- Wraps the lorem nodes of a part of an abbreviation; `begins` says that a node may
begin here, and `skip` characters belong to a node that was wrapped. -/
def wrapFrom (whole : Nat) (begins : Bool) : (skip : Nat) → Text → Text
  | _, [] => []
  | skip + 1, c :: rest => wrapFrom whole (beginsNode c) skip rest
  | 0, c :: rest =>
    match if begins then match? (c :: rest) else none with
    | some m =>
      (if m.length = whole then m.element else '(' :: m.element ++ [')']) ++
        wrapFrom whole (beginsNode c) (m.length - 1) rest
    | none => c :: wrapFrom whole (beginsNode c) 0 rest

/-- The abbreviation with each lorem node that has modifiers wrapped, in brackets
unless it is the whole abbreviation. -/
def wrap (t : Text) : Text := wrapFrom t.length true 0 t

end Shorthand.Expansion.Lorem
