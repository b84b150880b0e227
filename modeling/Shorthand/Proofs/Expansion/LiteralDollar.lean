/-
Dollar signs that begin no tab stop, and the backslashes before them. Who reads an expansion takes
backslashes in pairs (`Abbreviation.signs`), so that such a dollar sign is a literal one behind an
odd number of them only. `escapeDollars` looks at the last one alone: it makes no run of none, and
leaves any other as it is (`looseRuns_escapeDollars`).
-/
import Mathlib.Algebra.Ring.Parity
import Shorthand.Proofs.Abbreviation.EscapePair
import Shorthand.Proofs.Expansion.Pass

namespace Shorthand.Expansion.TabStop

open Abbreviation (Sign signs)
open Text (isDecimal)

/-! ## Backslashes at the end of a text -/

/-- How many backslashes a text ends with. -/
def backslashes (t : Text) : Nat := (t.rtakeWhile (· == '\\')).length

theorem backslashes_nil : backslashes [] = 0 := by rw [backslashes, List.rtakeWhile_nil, List.length_nil]

theorem backslashes_concat (t : Text) : backslashes (t ++ ['\\']) = backslashes t + 1 := by
  rw [backslashes, List.rtakeWhile_concat_pos _ _ _ rfl, List.length_append, List.length_singleton, backslashes]

theorem backslashes_concat_of_ne {c : Char} (h : c ≠ '\\') (t : Text) : backslashes (t ++ [c]) = 0 := by
  rw [backslashes, List.rtakeWhile_concat_neg _ _ _ (by simpa using h), List.length_nil]

/-- Taken in pairs, the backslashes at the end leave one over when their number is odd. -/
theorem bare_escape_mem_iff_odd (t : Text) : .bare '\\' ∈ signs t ↔ Odd (backslashes t) := by
  induction t using List.reverseRecOn with
  | nil => simp [signs, backslashes_nil]
  | append_singleton t c ih =>
    by_cases hc : c = '\\'
    · subst hc
      rw [backslashes_concat, Nat.odd_add_one, ← ih]
      rcases Abbreviation.signs_append_cases t ['\\'] with h | ⟨t', c', rest, rfl, heq, ht, h⟩
      · have hnot := Abbreviation.not_mem_of_signs_append h (List.cons_ne_nil _ _)
        exact iff_of_true (h ▸ List.mem_append_right _ List.mem_cons_self) hnot
      · obtain ⟨rfl, rfl⟩ := List.cons.inj heq
        have hnot := Abbreviation.not_mem_of_signs_append ht (List.cons_ne_nil _ _)
        rw [h, ht]
        simp [hnot, signs]
    · rw [backslashes_concat_of_ne hc]
      refine iff_of_false (fun h => ?_) Nat.not_odd_zero
      have hlast := Abbreviation.getLast?_of_bare_escape h
      rw [List.getLast?_concat, Option.some.injEq] at hlast
      exact hc hlast

/-- A dollar sign is read with the backslash before it. -/
def Literal (before after : Text) : Prop :=
  signs (before ++ '$' :: after) = signs before.dropLast ++ .escaped '$' :: signs after

/-- **A dollar sign is a literal one behind an odd number of backslashes, and no other is.** -/
theorem literal_iff_odd (before after : Text) : Literal before after ↔ Odd (backslashes before) := by
  rw [Literal, ← bare_escape_mem_iff_odd]
  rcases Abbreviation.signs_append_cases before ('$' :: after) with h | ⟨before', c, rest, rfl, heq, hbefore, h⟩
  · have hnot := Abbreviation.not_mem_of_signs_append h (List.cons_ne_nil _ _)
    refine iff_of_false (fun hlit => ?_) hnot
    rw [h, Abbreviation.signs_cons (by decide)] at hlit
    have htail := (List.append_inj' hlit rfl).2
    cases (List.cons.inj htail).1
  · obtain ⟨rfl, rfl⟩ := List.cons.inj heq
    rw [List.dropLast_concat, h, hbefore]
    exact iff_of_true rfl (List.mem_append_right _ List.mem_cons_self)

/-! ## Dollar signs that begin no tab stop -/

/-- What a tab stop goes on with behind its dollar sign. -/
def FieldStart (after : Text) : Prop := ∃ digit rest, after = '\x7b' :: digit :: rest ∧ isDecimal digit = true

theorem isFieldStart_iff (after : Text) : isFieldStart after = true ↔ FieldStart after := by
  rw [isFieldStart.eq_def]
  split
  next c rest =>
    constructor
    · exact fun h => ⟨c, rest, rfl, h⟩
    · rintro ⟨_, _, heq, h⟩
      cases heq
      exact h
  next h => exact iff_of_false Bool.false_ne_true fun ⟨c, rest, heq, _⟩ => h c rest heq

theorem isFieldStart_eq_false_iff (after : Text) : isFieldStart after = false ↔ ¬ FieldStart after := by
  rw [← isFieldStart_iff, Bool.not_eq_true]

/-- A text with a dollar sign that begins no tab stop, between what stands before and behind it. -/
def LooseIn (t before after : Text) : Prop := t = before ++ '$' :: after ∧ ¬ FieldStart after

/-- How many backslashes stand before each dollar sign that begins no tab stop, with `n` of them
before the text. -/
def looseRuns (n : Nat) : Text → List Nat
  | [] => []
  | c :: rest =>
    (if c = '$' ∧ isFieldStart rest = false then [n] else []) ++
      looseRuns (if c = '\\' then n + 1 else 0) rest

theorem mem_looseRuns_append_iff (s t : Text) (n : Nat) :
    n ∈ looseRuns (backslashes s) t ↔
      ∃ before after, LooseIn t before after ∧ backslashes (s ++ before) = n := by
  induction t generalizing s with
  | nil => simp [looseRuns, LooseIn]
  | cons c rest ih =>
    -- What is read goes over to the text before.
    have hrun : (if c = '\\' then backslashes s + 1 else 0) = backslashes (s ++ [c]) := by
      split
      next hc => rw [hc, backslashes_concat]
      next hc => rw [backslashes_concat_of_ne hc]
    rw [looseRuns, List.mem_append, hrun, ih]
    constructor
    · rintro (h | ⟨before, after, ⟨rfl, hloose⟩, hn⟩)
      · split at h
        next hc =>
          obtain ⟨rfl, hstart⟩ := hc
          have hloose := (isFieldStart_eq_false_iff rest).1 hstart
          exact ⟨[], rest, ⟨rfl, hloose⟩, by rw [List.append_nil, List.mem_singleton.1 h]⟩
        next => cases h
      · refine ⟨c :: before, after, ⟨rfl, hloose⟩, ?_⟩
        rw [← hn, List.append_assoc, List.singleton_append]
    · rintro ⟨before, after, ⟨heq, hloose⟩, hn⟩
      cases before with
      | nil =>
        obtain ⟨rfl, rfl⟩ := List.cons.inj heq
        rw [← isFieldStart_eq_false_iff] at hloose
        rw [List.append_nil] at hn
        exact .inl (by simp [hloose, hn])
      | cons c' before =>
        obtain ⟨rfl, rfl⟩ := List.cons.inj heq
        exact .inr ⟨before, after, ⟨rfl, hloose⟩, by rw [← hn, List.append_assoc, List.singleton_append]⟩

theorem mem_looseRuns_iff (t : Text) (n : Nat) :
    n ∈ looseRuns 0 t ↔ ∃ before after, LooseIn t before after ∧ backslashes before = n := by
  have h := mem_looseRuns_append_iff [] t n
  rwa [backslashes_nil] at h

/-! ## What escaping does to them -/

/-- The text with a backslash before some of the dollar signs that begin no tab stop, and nothing
else changed. -/
inductive Escapes : Text → Text → Prop
  | nil : Escapes [] []
  | keep {t u : Text} (c : Char) : Escapes t u → Escapes (c :: t) (c :: u)
  | escape {t u : Text} : ¬ FieldStart t → Escapes t u → Escapes ('$' :: t) ('\\' :: '$' :: u)

theorem escapeDollarsAfter_loose {rest : Text} (h : isFieldStart rest = false) :
    escapeDollarsAfter false ('$' :: rest) = '\\' :: '$' :: escapeDollarsAfter false rest :=
  pass_escapeDollarsAfter.field (by rw [loose?, h, if_neg Bool.false_ne_true])

theorem escapeDollarsAfter_keep {escaped : Bool} {c : Char} {rest : Text}
    (h : ¬ (c = '$' ∧ escaped = false ∧ isFieldStart rest = false)) :
    escapeDollarsAfter escaped (c :: rest) = c :: escapeDollarsAfter (c == '\\') rest := by
  refine pass_escapeDollarsAfter.char fun hescaped => ?_
  by_cases hc : c = '$'
  · have hstart : isFieldStart rest = true := by
      by_contra hstart
      exact h ⟨hc, hescaped, Bool.not_eq_true _ ▸ hstart⟩
    rw [hc, loose?, if_pos hstart]
  · exact pass_escapeDollarsAfter.dollar hc

theorem escapes_escapeDollarsAfter (escaped : Bool) (t : Text) : Escapes t (escapeDollarsAfter escaped t) := by
  induction t generalizing escaped with
  | nil => exact .nil
  | cons c rest ih =>
    by_cases h : c = '$' ∧ escaped = false ∧ isFieldStart rest = false
    · obtain ⟨rfl, rfl, hstart⟩ := h
      rw [escapeDollarsAfter_loose hstart]
      exact .escape ((isFieldStart_eq_false_iff rest).1 hstart) (ih _)
    · rw [escapeDollarsAfter_keep h]
      exact .keep c (ih _)

theorem isFieldStart_of_ne {c : Char} (h : c ≠ '\x7b') (rest : Text) : isFieldStart (c :: rest) = false := by
  rw [isFieldStart]
  rintro _ _ heq
  exact h (List.cons.inj heq).1

/-- Nothing is put between the bracket and the digit of a tab stop. -/
theorem isFieldStart_eq_of_escapes {t u : Text} (h : Escapes t u) : isFieldStart u = isFieldStart t := by
  cases h with
  | nil => rfl
  | escape hloose h => rw [isFieldStart_of_ne (by decide), isFieldStart_of_ne (by decide)]
  | keep c h =>
    by_cases hc : c = '\x7b'
    · subst hc
      cases h with
      | nil => rfl
      | keep d h => rfl
      | escape hloose h =>
        rw [isFieldStart, isFieldStart]
        decide
    · rw [isFieldStart_of_ne hc, isFieldStart_of_ne hc]

theorem looseRuns_escapeDollarsAfter {escaped : Bool} {n : Nat} (hn : escaped = (n != 0)) (t : Text) :
    looseRuns n (escapeDollarsAfter escaped t) = (looseRuns n t).map (max 1) := by
  induction t generalizing escaped n with
  | nil => rfl
  | cons c rest ih =>
    have hrest : isFieldStart (escapeDollarsAfter (c == '\\') rest) = isFieldStart rest :=
      isFieldStart_eq_of_escapes (escapes_escapeDollarsAfter _ rest)
    by_cases h : c = '$' ∧ escaped = false ∧ isFieldStart rest = false
    · obtain ⟨rfl, rfl, hstart⟩ := h
      obtain rfl : n = 0 := by simpa using hn.symm
      rw [beq_false_of_ne (by decide), hstart] at hrest
      rw [escapeDollarsAfter_loose hstart, looseRuns, looseRuns, looseRuns, hrest, hstart]
      simpa using @ih false 0 rfl
    · have htail : (c == '\\') = ((if c = '\\' then n + 1 else 0) != 0) := by
        by_cases hc : c = '\\' <;> simp [hc]
      rw [escapeDollarsAfter_keep h, looseRuns, looseRuns, hrest, ih htail, List.map_append]
      congr 1
      split
      next hloose =>
        have hpos : 1 ≤ n := by
          by_contra hlt
          obtain rfl : n = 0 := by omega
          exact h ⟨hloose.1, hn, hloose.2⟩
        rw [List.map_singleton, Nat.max_eq_right hpos]
      next => rfl

/-- **Each of these dollar signs that had no backslash before it has one, and the others have as
many as they had.** -/
theorem looseRuns_escapeDollars (t : Text) : looseRuns 0 (escapeDollars t) = (looseRuns 0 t).map (max 1) :=
  looseRuns_escapeDollarsAfter rfl t

/-- Every dollar sign that begins no tab stop stands behind an odd number of backslashes, and is
read with the last of them. -/
def AllLiteral (t : Text) : Prop :=
  ∀ before after, LooseIn t before after → Odd (backslashes before) ∧ Literal before after

theorem allLiteral_iff (t : Text) : AllLiteral t ↔ ∀ n ∈ looseRuns 0 t, Odd n := by
  constructor
  · intro h n hn
    obtain ⟨before, after, hloose, rfl⟩ := (mem_looseRuns_iff t n).1 hn
    exact (h before after hloose).1
  · intro h before after hloose
    have hodd := h _ ((mem_looseRuns_iff t _).2 ⟨before, after, hloose, rfl⟩)
    exact ⟨hodd, (literal_iff_odd before after).2 hodd⟩

/-- **Escaping only puts backslashes before dollar signs that begin no tab stop, and all of these
are literal ones afterwards exactly if each stood behind no backslash or an odd number of them.** -/
theorem allLiteral_escapeDollars_iff (t : Text) :
    Escapes t (escapeDollars t) ∧
      (AllLiteral (escapeDollars t) ↔
        ∀ before after, LooseIn t before after → backslashes before = 0 ∨ Odd (backslashes before)) := by
  refine ⟨escapes_escapeDollarsAfter false t, ?_⟩
  have hmax (n : Nat) : Odd (max 1 n) ↔ n = 0 ∨ Odd n := by
    cases n with
    | zero => exact iff_of_true odd_one (.inl rfl)
    | succ n => simp
  rw [allLiteral_iff, looseRuns_escapeDollars, List.forall_mem_map]
  constructor
  · intro h before after hloose
    exact (hmax _).1 (h _ ((mem_looseRuns_iff t _).2 ⟨before, after, hloose, rfl⟩))
  · intro h n hn
    obtain ⟨before, after, hloose, rfl⟩ := (mem_looseRuns_iff t n).1 hn
    exact (hmax _).2 (h before after hloose)

/-- A dollar sign behind two backslashes is left as it is. -/
theorem not_allLiteral_escapeDollars : ¬ AllLiteral (escapeDollars ['\\', '\\', '$']) := by
  rw [allLiteral_iff, looseRuns_escapeDollars]
  decide

end Shorthand.Expansion.TabStop
