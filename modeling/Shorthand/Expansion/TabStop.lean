/-
Tab stops in snippet texts: `${1}`, and `${2:placeholder}` with a text to be typed
over. A dollar sign behind a backslash is a literal one.
-/
import Shorthand.Text.Basic

namespace Shorthand.Expansion.TabStop

open Text (isDecimal)

/-- A tab stop as an expansion writes it. -/
def field (index placeholder : Text) : Text :=
  if placeholder.isEmpty then '$' :: '\x7b' :: index ++ ['\x7d']
  else '$' :: '\x7b' :: index ++ ':' :: placeholder ++ ['\x7d']

/-- What follows `${n`, when a text begins with that. -/
def afterIndex? : Text → Option Text
  | '$' :: '\x7b' :: rest =>
    let left := rest.dropWhile isDecimal
    if left.length < rest.length then some left else none
  | _ => none

/-- What follows a tab stop without placeholder. -/
def afterPlain? (t : Text) : Option Text :=
  match afterIndex? t with
  | some ('\x7d' :: rest) => some rest
  | _ => none

/-- The placeholder of a tab stop, and what follows it. -/
def placeholder? (t : Text) : Option (Text × Text) :=
  match afterIndex? t with
  | some (':' :: rest) =>
    match rest.dropWhile (· != '\x7d') with
    | '\x7d' :: after => some (rest.takeWhile (· != '\x7d'), after)
    | _ => none
  | _ => none

theorem length_afterIndex?_lt {t rest : Text} (h : afterIndex? t = some rest) :
    rest.length < t.length := by
  unfold afterIndex? at h
  split at h
  · simp only [Option.ite_none_right_eq_some, Option.some.injEq] at h
    obtain ⟨hlt, rfl⟩ := h
    simp; omega
  · cases h

theorem length_afterPlain?_lt {t rest : Text} (h : afterPlain? t = some rest) :
    rest.length < t.length := by
  unfold afterPlain? at h
  split at h
  · rename_i left hleft
    have := length_afterIndex?_lt hleft
    simp only [Option.some.injEq] at h
    subst h
    simp at this; omega
  · cases h

theorem length_placeholder?_lt {t placeholder rest : Text}
    (h : placeholder? t = some (placeholder, rest)) : rest.length < t.length := by
  unfold placeholder? at h
  split at h
  · rename_i left hleft
    have := length_afterIndex?_lt hleft
    split at h
    · rename_i after hafter
      have hle := (List.dropWhile_sublist (l := left) (· != '\x7d')).length_le
      rw [hafter] at hle
      simp only [Option.some.injEq, Prod.mk.injEq] at h
      obtain ⟨-, rfl⟩ := h
      simp at this hle; omega
    · cases h
  · cases h

/-- Replaces every tab stop without placeholder, `escaped` telling whether a backslash
stands before the text. -/
def replacePlain (replacement : Text) (escaped : Bool) (t : Text) : Text :=
  match h : if escaped then none else afterPlain? t with
  | some rest =>
    have : rest.length < t.length := by
      cases escaped
      · exact length_afterPlain?_lt h
      · cases h
    replacement ++ replacePlain replacement false rest
  | none => match t with
    | [] => []
    | c :: rest => c :: replacePlain replacement (c == '\\') rest
termination_by t.length

/-- Replaces every tab stop that has a placeholder by it. -/
def unwrapPlaceholders (escaped : Bool) (t : Text) : Text :=
  match h : if escaped then none else placeholder? t with
  | some (placeholder, rest) =>
    have : rest.length < t.length := by
      cases escaped
      · exact length_placeholder?_lt h
      · cases h
    placeholder ++ unwrapPlaceholders false rest
  | none => match t with
    | [] => []
    | c :: rest => c :: unwrapPlaceholders (c == '\\') rest
termination_by t.length

/-- The text with `|` for a tab stop and the placeholder for one that has it. -/
def toCursors (t : Text) : Text := unwrapPlaceholders false (replacePlain ['|'] false t)

/-- The text without its tab stops; placeholders stay. -/
def remove (t : Text) : Text := unwrapPlaceholders false (replacePlain [] false t)

/-- Whether a text goes on like a tab stop after its dollar sign. -/
def isFieldStart : Text → Bool
  | '\x7b' :: c :: _ => isDecimal c
  | _ => false

/-- Puts a backslash before each dollar sign that begins no tab stop, unless one is
there. -/
def escapeDollarsAfter (escaped : Bool) : Text → Text
  | [] => []
  | c :: rest =>
    (if c = '$' && !escaped && !isFieldStart rest then ['\\', c] else [c]) ++
      escapeDollarsAfter (c == '\\') rest

def escapeDollars (t : Text) : Text := escapeDollarsAfter false t

end Shorthand.Expansion.TabStop
