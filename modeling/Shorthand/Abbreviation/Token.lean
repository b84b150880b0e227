/-
The tokens of a markup abbreviation, and the ways in which a text can fail to be one.
-/
import Shorthand.Text.Quoted

namespace Shorthand.Abbreviation

/-- The names of the kinds that the grammar has. -/
def grammarKinds : List Text := ["node", "op", "open", "close", "repeat"].map String.toList

inductive TokenKind where
  | node | operator | opening | closing | repetition
  /-- A kind that the grammar does not have. No text is cut into such tokens. -/
  | foreign (name : Text) (unknown : name ∉ grammarKinds)
  deriving DecidableEq, Repr

namespace TokenKind

def name : TokenKind → Text
  | .node => "node".toList
  | .operator => "op".toList
  | .opening => "open".toList
  | .closing => "close".toList
  | .repetition => "repeat".toList
  | .foreign name _ => name

/-- Every text is the name of a kind. -/
theorem exists_name (t : Text) : ∃ kind : TokenKind, kind.name = t := by
  by_cases h : t ∈ grammarKinds
  · simp only [grammarKinds, List.map_cons, List.map_nil, List.mem_cons, List.not_mem_nil, or_false] at h
    obtain rfl | rfl | rfl | rfl | rfl := h
    · exact ⟨.node, rfl⟩
    · exact ⟨.operator, rfl⟩
    · exact ⟨.opening, rfl⟩
    · exact ⟨.closing, rfl⟩
    · exact ⟨.repetition, rfl⟩
  · exact ⟨.foreign t h, rfl⟩

/-- Kinds are told apart by their names. -/
theorem name_injective {kind kind' : TokenKind} (h : kind.name = kind'.name) : kind = kind' := by
  cases kind with
  | foreign name unknown =>
    cases kind' with
    | foreign name' unknown' =>
      obtain rfl : name = name' := h
      rfl
    | _ =>
      obtain rfl : name = _ := h
      exact absurd (by decide) unknown
  | _ =>
    cases kind' with
    | foreign name' unknown' =>
      obtain rfl : _ = name' := h
      exact absurd (by decide) unknown'
    | _ => first | rfl | exact absurd h (by decide)

end TokenKind

structure Token where
  kind : TokenKind
  value : Text
  deriving DecidableEq, Repr

/-- Why a text or a list of tokens is no markup abbreviation. Positions are indices
into the text. -/
inductive Malformed where
  | unclosed (bracket : Char) (position : Nat)
  | unmatched (bracket : Char) (position : Nat)
  | malformedAttributes (position : Nat)
  | unexpected (c : Char) (position : Nat)
  | repeatTooLarge (count : Text)
  | unexpectedToken (value : Text)
  | unexpectedEnd
  | danglingOperator
  | emptyGroup
  | unbalancedGroup
  | detachedGroup
  deriving DecidableEq, Repr

def Malformed.message : Malformed → Text
  | .unclosed b p => "Unclosed ".toList ++ Text.quoted [b] ++ " at ".toList ++ Text.ofNat p
  | .unmatched b p => "Unmatched ".toList ++ Text.quoted [b] ++ " at ".toList ++ Text.ofNat p
  | .malformedAttributes p => "Malformed attributes at ".toList ++ Text.ofNat p
  | .unexpected c p => "Unexpected ".toList ++ Text.quoted [c] ++ " at ".toList ++ Text.ofNat p
  | .repeatTooLarge n => "Repeat count ".toList ++ n ++ " too large".toList
  | .unexpectedToken v => "Unexpected ".toList ++ Text.quoted v
  | .unexpectedEnd => "Unexpected end of abbreviation".toList
  | .danglingOperator => "Dangling operator".toList
  | .emptyGroup => "Empty group".toList
  | .unbalancedGroup => "Unbalanced group".toList
  | .detachedGroup => "Detached group".toList

/-- Why a text cannot be cut into tokens. A repeat count whose digits cannot be read
as a number is told apart from a malformed text. -/
inductive LexicalFault where
  | malformed (why : Malformed)
  | unreadableCount (digits : Text)
  deriving DecidableEq, Repr

end Shorthand.Abbreviation
