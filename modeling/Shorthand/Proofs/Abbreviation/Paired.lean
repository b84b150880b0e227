/-
Backslashes in markup abbreviations. Each takes a character with it: in every part of a node, in the
strings and blocks of one, and so in all that is cut into pieces (`Cut.paired`). No markup
abbreviation ends in a backslash that is left over.
-/
import Shorthand.Proofs.Abbreviation.EscapePair
import Shorthand.Proofs.Abbreviation.Markup

namespace Shorthand.Abbreviation

/-- Every backslash takes a character with it. -/
def Paired (t : Text) : Prop := .bare '\\' ∉ signs t

namespace Paired

variable {s t : Text}

theorem nil : Paired [] := List.not_mem_nil

theorem of_not_mem (h : '\\' ∉ t) : Paired t := by
  rw [Paired, signs_of_not_mem h]
  intro hmem
  obtain ⟨c, hc, heq⟩ := List.mem_map.1 hmem
  exact h (Sign.bare.inj heq ▸ hc)

theorem append (hs : Paired s) (ht : Paired t) : Paired (s ++ t) := by
  rw [Paired, signs_append hs]
  exact fun h => (List.mem_append.1 h).elim hs ht

theorem cons {c : Char} (hc : c ≠ '\\') (ht : Paired t) : Paired (c :: t) :=
  append (s := [c]) (of_not_mem (by simpa using hc.symm)) ht

theorem pair (c : Char) (ht : Paired t) : Paired ('\\' :: c :: t) :=
  append (s := ['\\', c]) (by simp [Paired, signs]) ht

end Paired

/-! ## Blocks -/

theorem Bracket.StringBody.paired {quote : Char} {t : Text} (h : StringBody quote t) : Paired t := by
  induction h with
  | nil => exact .nil
  | escape c _ ih => exact ih.pair c
  | char hc _ _ ih => exact ih.cons hc

theorem Bracket.Body.paired {b : Bracket} {t : Text} (h : b.Body t) : Paired t := by
  induction h with
  | nil => exact .nil
  | escape c _ ih => exact ih.pair c
  | string hquote hinside _ ih =>
    have hne := ne_escape_of_opensQuote hquote
    exact .cons hne (hinside.paired.append (ih.cons hne))
  | nested _ _ ihinside ihrest =>
    exact .cons b.opening_ne_escape (ihinside.append (ihrest.cons b.closing_ne_escape))
  | plain hplain _ ih => exact ih.cons hplain.1

/-! ## Pieces -/

theorem NodePart.paired {part : Text} (h : NodePart part) : Paired part := by
  cases h with
  | name hc =>
    refine .cons ?_ .nil
    rintro rfl
    exact absurd hc (by decide)
  | sign hc => exact .cons (by rcases hc with rfl | rfl <;> decide) .nil
  | escaped c => exact .pair c .nil
  | attributes hbody _ => exact .cons (by decide) (hbody.paired.append (.cons (by decide) .nil))
  | text hbody => exact .cons (by decide) (hbody.paired.append (.cons (by decide) .nil))

theorem paired_flatten {parts : List Text} (h : ∀ part ∈ parts, NodePart part) : Paired parts.flatten := by
  induction parts with
  | nil => exact .nil
  | cons part parts ih =>
    obtain ⟨hpart, hparts⟩ := List.forall_mem_cons.1 h
    exact hpart.paired.append (ih hparts)

theorem Piece.paired {kind : TokenKind} {value rest : Text} (h : Piece kind value rest) : Paired value := by
  cases h with
  | operator hc => exact .cons (by rcases hc with rfl | rfl <;> decide) .nil
  | climb hrun => exact .cons (by decide) (.of_not_mem fun h => absurd (hrun.all _ h) (by decide))
  | opening => exact .cons (by decide) .nil
  | closing => exact .cons (by decide) .nil
  | repetition hrun _ => exact .cons (by decide) (.of_not_mem fun h => absurd (hrun.all _ h) (by decide))
  | node _ hparts _ => exact paired_flatten hparts

theorem Cut.paired {t : Text} {tokens : List Token} (h : Cut t tokens) : Paired t := by
  induction h with
  | nil => exact .nil
  | cons hpiece _ ih => exact hpiece.paired.append ih

/-- **In a markup abbreviation every backslash takes a character with it.** -/
theorem paired_of_isMarkup {t : Text} (h : isMarkup t = .ok true) : Paired t := by
  obtain ⟨-, ⟨rest, rfl, hrest⟩ | ⟨_, _, _, -, -, -, hcut, -⟩⟩ := isMarkup_eq_true_iff.1 h
  · exact .cons (by decide) (.of_not_mem fun h => absurd (hrest _ h) (by decide))
  · exact hcut.paired

end Shorthand.Abbreviation
