/-
The passes that read an expansion: one takes the tab stops without placeholder, one those with a
placeholder, one the dollar signs that are none. Each goes over the text once, from left to right,
and is described by what it recognises (`Pass`): that is replaced, unless a backslash stands before
it, and any other character stays.
-/
import Shorthand.Expansion.TabStop

namespace Shorthand.Expansion.TabStop

theorem afterIndex?_of_ne {c : Char} (h : c ≠ '$') (rest : Text) : afterIndex? (c :: rest) = none := by
  rw [afterIndex?]
  rintro _ heq
  exact h (List.cons.inj heq).1

/-- A pass over a text that replaces what `field?` recognises, unless a backslash stands before it.
What it recognises begins with a dollar sign. -/
structure Pass (field? : Text → Option (Text × Text)) (pass : Bool → Text → Text) : Prop where
  dollar : ∀ {c rest}, c ≠ '$' → field? (c :: rest) = none
  nil : ∀ escaped, pass escaped [] = []
  field : ∀ {t replacement rest}, field? t = some (replacement, rest) →
    pass false t = replacement ++ pass false rest
  char : ∀ {escaped c rest}, (escaped = false → field? (c :: rest) = none) →
    pass escaped (c :: rest) = c :: pass (c == '\\') rest

theorem pass_replacePlain (replacement : Text) :
    Pass (fun t => (afterPlain? t).map (replacement, ·)) (replacePlain replacement) where
  dollar h := by rw [afterPlain?, afterIndex?_of_ne h]; rfl
  nil escaped := by cases escaped <;> rw [replacePlain] <;> rfl
  field {t _ _} h := by
    obtain ⟨rest, hrest, heq⟩ := Option.map_eq_some_iff.1 h
    obtain ⟨rfl, rfl⟩ := Prod.mk.inj heq
    rw [replacePlain]
    split
    next hleft =>
      rw [if_neg Bool.false_ne_true, hrest, Option.some.injEq] at hleft
      rw [hleft]
    next hnone =>
      rw [if_neg Bool.false_ne_true, hrest] at hnone
      cases hnone
  char {escaped c rest} h := by
    rw [replacePlain]
    split
    next hleft =>
      cases escaped with
      | true => cases hleft
      | false =>
        have hnone := Option.map_eq_none_iff.1 (h rfl)
        rw [if_neg Bool.false_ne_true, hnone] at hleft
        cases hleft
    next => rfl

theorem pass_unwrapPlaceholders : Pass placeholder? unwrapPlaceholders where
  dollar h := by rw [placeholder?, afterIndex?_of_ne h]
  nil escaped := by cases escaped <;> rw [unwrapPlaceholders] <;> rfl
  field {t _ _} h := by
    rw [unwrapPlaceholders]
    split
    next hleft =>
      rw [if_neg Bool.false_ne_true, h, Option.some.injEq, Prod.mk.injEq] at hleft
      rw [hleft.1, hleft.2]
    next hnone =>
      rw [if_neg Bool.false_ne_true, h] at hnone
      cases hnone
  char {escaped c rest} h := by
    rw [unwrapPlaceholders]
    split
    next hleft =>
      cases escaped with
      | true => cases hleft
      | false =>
        rw [if_neg Bool.false_ne_true, h rfl] at hleft
        cases hleft
    next => rfl

/-- What is put in place of a dollar sign that begins no tab stop. -/
def loose? : Text → Option (Text × Text)
  | '$' :: rest => if isFieldStart rest then none else some (['\\', '$'], rest)
  | _ => none

theorem pass_escapeDollarsAfter : Pass loose? escapeDollarsAfter where
  dollar h := by
    rw [loose?]
    rintro _ heq
    exact h (List.cons.inj heq).1
  nil _ := rfl
  field {t _ rest} h := by
    rw [loose?.eq_def] at h
    split at h
    next left =>
      rw [Option.ite_none_left_eq_some, Option.some.injEq, Prod.mk.injEq] at h
      obtain ⟨hstart, rfl, rfl⟩ := h
      rw [escapeDollarsAfter]
      simp [hstart]
    next => cases h
  char {escaped c rest} h := by
    rw [escapeDollarsAfter, if_neg, List.singleton_append]
    rw [Bool.and_eq_true, Bool.and_eq_true, decide_eq_true_iff, Bool.not_eq_true', Bool.not_eq_true']
    rintro ⟨⟨rfl, hescaped⟩, hstart⟩
    have hnone := h hescaped
    rw [loose?, hstart, if_neg Bool.false_ne_true] at hnone
    cases hnone

namespace Pass

variable {field? : Text → Option (Text × Text)} {pass : Bool → Text → Text}

theorem append_of_plain (h : Pass field? pass) {t : Text} (ht : ∀ c ∈ t, c ≠ '$' ∧ c ≠ '\\') (rest : Text) :
    pass false (t ++ rest) = t ++ pass false rest := by
  induction t with
  | nil => rfl
  | cons c t ih =>
    obtain ⟨hc, ht⟩ := List.forall_mem_cons.1 ht
    rw [List.cons_append, h.char fun _ => h.dollar hc.1, beq_false_of_ne hc.2, ih ht, List.cons_append]

end Pass

end Shorthand.Expansion.TabStop
