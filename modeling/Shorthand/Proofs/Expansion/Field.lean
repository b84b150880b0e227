/-
What a tab stop is, said by the texts that are one. `afterPlain?_eq_some_iff` and
`placeholder?_eq_some_iff` say that reading a tab stop recognises these texts and no others.
-/
import Mathlib.Data.List.Basic
import Shorthand.Proofs.Expansion.Pass
import Shorthand.Proofs.Text.Run

namespace Shorthand.Expansion.TabStop

open Text (isDecimal)

/-- A number as it stands in a tab stop. -/
def IsIndex (t : Text) : Prop := t ≠ [] ∧ ∀ d ∈ t, isDecimal d = true

theorem isIndex_singleton {d : Char} (h : isDecimal d = true) : IsIndex [d] :=
  ⟨List.cons_ne_nil d [], List.forall_mem_singleton.2 h⟩

/-- A tab stop without placeholder, or one with a placeholder that ends at the first bracket. -/
inductive IsField : Text → Prop
  | plain {index : Text} : IsIndex index → IsField ('$' :: '\x7b' :: (index ++ ['\x7d']))
  | held {index placeholder : Text} : IsIndex index → '\x7d' ∉ placeholder →
    IsField ('$' :: '\x7b' :: (index ++ ':' :: (placeholder ++ ['\x7d'])))

/-- No tab stop stands in a text, unless with a backslash directly before it. -/
def FieldFree (t : Text) : Prop :=
  ∀ before field after, t = before ++ (field ++ after) → IsField field → before.getLast? = some '\\'

theorem run_bracket {t : Text} (h : '\x7d' ∉ t) (rest : Text) : Text.Run (· != '\x7d') t ('\x7d' :: rest) :=
  ⟨fun _ hc => bne_iff_ne.2 fun hbracket => h (hbracket ▸ hc), Text.stops_cons.2 rfl⟩

/-- A text is cut at its first closing bracket in one way. -/
theorem first_bracket_inj {s s' t t' : Text} (hs : '\x7d' ∉ s) (hs' : '\x7d' ∉ s')
    (h : s ++ '\x7d' :: t = s' ++ '\x7d' :: t') : s = s' ∧ t = t' := by
  obtain ⟨rfl, hrest⟩ := (run_bracket hs t).inj (run_bracket hs' t') h
  exact ⟨rfl, (List.cons.inj hrest).2⟩

theorem afterIndex?_eq_some_iff {t left : Text} :
    afterIndex? t = some left ↔
      ∃ index, IsIndex index ∧ Text.Stops isDecimal left ∧ t = '$' :: '\x7b' :: (index ++ left) := by
  constructor
  · intro h
    rw [afterIndex?.eq_def] at h
    split at h
    next rest =>
      have hrun := Text.run_takeWhile isDecimal rest
      have hsplit : rest.takeWhile isDecimal ++ rest.dropWhile isDecimal = rest := List.takeWhile_append_dropWhile
      rw [Option.ite_none_right_eq_some, Option.some.injEq] at h
      obtain ⟨hlt, rfl⟩ := h
      refine ⟨rest.takeWhile isDecimal, ⟨fun hnil => ?_, hrun.all⟩, hrun.stops, by rw [hsplit]⟩
      rw [hnil, List.nil_append] at hsplit
      exact Nat.lt_irrefl _ (congrArg List.length hsplit ▸ hlt)
    next => cases h
  · rintro ⟨index, ⟨hne, hall⟩, hstops, rfl⟩
    have hrun : Text.Run isDecimal index left := ⟨hall, hstops⟩
    have hlt : left.length < (index ++ left).length := by
      rw [List.length_append]
      exact Nat.lt_add_of_pos_left (List.length_pos_iff.2 hne)
    simp only [afterIndex?, hrun.dropWhile_eq, if_pos hlt]

theorem afterPlain?_eq_some_iff {t rest : Text} :
    afterPlain? t = some rest ↔
      ∃ index, IsIndex index ∧ t = '$' :: '\x7b' :: (index ++ '\x7d' :: rest) := by
  have hstops : Text.Stops isDecimal ('\x7d' :: rest) := Text.stops_cons.2 (by decide)
  constructor
  · intro h
    rw [afterPlain?.eq_def] at h
    split at h
    next hleft =>
      obtain rfl := Option.some.inj h
      obtain ⟨index, hindex, -, rfl⟩ := afterIndex?_eq_some_iff.1 hleft
      exact ⟨index, hindex, rfl⟩
    next => cases h
  · rintro ⟨index, hindex, rfl⟩
    simp only [afterPlain?, afterIndex?_eq_some_iff.2 ⟨index, hindex, hstops, rfl⟩]

theorem placeholder?_eq_some_iff {t placeholder rest : Text} :
    placeholder? t = some (placeholder, rest) ↔
      ∃ index, IsIndex index ∧ '\x7d' ∉ placeholder ∧
        t = '$' :: '\x7b' :: (index ++ ':' :: (placeholder ++ '\x7d' :: rest)) := by
  constructor
  · intro h
    rw [placeholder?.eq_def] at h
    split at h
    next left hleft =>
      obtain ⟨index, hindex, -, rfl⟩ := afterIndex?_eq_some_iff.1 hleft
      have hrun := Text.run_takeWhile (· != '\x7d') left
      have hsplit : left.takeWhile (· != '\x7d') ++ left.dropWhile (· != '\x7d') = left :=
        List.takeWhile_append_dropWhile
      split at h
      next after hafter =>
        obtain ⟨rfl, rfl⟩ := Prod.mk.inj (Option.some.inj h)
        rw [hafter] at hsplit
        refine ⟨index, hindex, fun hmem => ?_, by rw [hsplit]⟩
        exact absurd rfl (bne_iff_ne.1 (hrun.all _ hmem))
      next => cases h
    next => cases h
  · rintro ⟨index, hindex, hclosing, rfl⟩
    have hstops : Text.Stops isDecimal (':' :: (placeholder ++ '\x7d' :: rest)) := Text.stops_cons.2 (by decide)
    have hrun := run_bracket hclosing rest
    rw [placeholder?, afterIndex?_eq_some_iff.2 ⟨index, hindex, hstops, rfl⟩]
    simp only [hrun.dropWhile_eq, hrun.takeWhile_eq]

end Shorthand.Expansion.TabStop
