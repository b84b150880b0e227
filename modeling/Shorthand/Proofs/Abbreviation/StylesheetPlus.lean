/-
Stylesheet abbreviations with `+` between them. Runs of stylesheet characters may be joined; a
colour stands alone, with or without the property that it is for, and has no place beside a `+`.
-/
import Mathlib.Data.List.Basic
import Shorthand.Abbreviation.Valid

namespace Shorthand.Abbreviation

open Text (isAsciiLetter isDigit)

variable {s t : Text} {c : Char}

/-! ## Runs -/

theorem isStylesheetRun_cons (hc : c ≠ '-') (rest : Text) :
    isStylesheetRun (c :: rest) = (isStylesheetStart c && rest.all isStylesheetChar) := by
  rw [isStylesheetRun.eq_def]
  split
  next heq =>
    split at heq
    · exact absurd (List.cons.inj ‹_›).1 hc
    · cases heq
  next d more heq =>
    split at heq
    · exact absurd (List.cons.inj ‹_›).1 hc
    · cases heq
      rfl

/-- A run begins like a name, behind a `-` or not. -/
theorem isStylesheetRun_iff :
    isStylesheetRun t = true ↔ ∃ sign c rest, (sign = [] ∨ sign = ['-']) ∧ t = sign ++ c :: rest ∧
      isStylesheetStart c = true ∧ ∀ d ∈ rest, isStylesheetChar d = true := by
  constructor
  · intro h
    cases t with
    | nil => cases h
    | cons d rest =>
      by_cases hd : d = '-'
      · subst hd
        cases rest with
        | nil => cases h
        | cons c rest =>
          have h : (isStylesheetStart c && rest.all isStylesheetChar) = true := h
          rw [Bool.and_eq_true, List.all_eq_true] at h
          exact ⟨['-'], c, rest, .inr rfl, rfl, h.1, h.2⟩
      · rw [isStylesheetRun_cons hd, Bool.and_eq_true, List.all_eq_true] at h
        exact ⟨[], d, rest, .inl rfl, rfl, h.1, h.2⟩
  · rintro ⟨sign, c, rest, hsign, rfl, hstart, hrest⟩
    have hbehind : (isStylesheetStart c && rest.all isStylesheetChar) = true :=
      Bool.and_eq_true_iff.2 ⟨hstart, List.all_eq_true.2 hrest⟩
    rcases hsign with rfl | rfl
    · have hc : c ≠ '-' := by
        rintro rfl
        exact absurd hstart (by decide)
      rwa [List.nil_append, isStylesheetRun_cons hc]
    · exact hbehind

theorem isStylesheetChar_of_start (h : isStylesheetStart c = true) : isStylesheetChar c = true := by
  simp only [isStylesheetStart, Bool.or_eq_true, List.contains_iff_mem, List.mem_cons, List.not_mem_nil,
    or_false] at h
  rcases h with hletter | rfl | rfl | rfl
  · have hletter : c.isAlpha = true := hletter
    simp [isStylesheetChar, Text.isAsciiAlphanumeric, Char.isAlphanum, hletter]
  all_goals decide

theorem isStylesheetChar_of_run (h : isStylesheetRun t = true) : ∀ c ∈ t, isStylesheetChar c = true := by
  obtain ⟨sign, c, rest, hsign, rfl, hstart, hrest⟩ := isStylesheetRun_iff.1 h
  have hchars : ∀ d ∈ c :: rest, isStylesheetChar d = true :=
    List.forall_mem_cons.2 ⟨isStylesheetChar_of_start hstart, hrest⟩
  rcases hsign with rfl | rfl
  · exact hchars
  · exact List.forall_mem_cons.2 ⟨by decide, hchars⟩

theorem isStylesheetRun_append (h : isStylesheetRun s = true) (ht : ∀ c ∈ t, isStylesheetChar c = true) :
    isStylesheetRun (s ++ t) = true := by
  obtain ⟨sign, c, rest, hsign, rfl, hstart, hrest⟩ := isStylesheetRun_iff.1 h
  exact isStylesheetRun_iff.2
    ⟨sign, c, rest ++ t, hsign, by simp, hstart, List.forall_mem_append.2 ⟨hrest, ht⟩⟩

/-! ## Colours -/

theorem mem_afterColorDigits (hc : c ∈ t) (hdigit : isColorDigit c = false) (most : Nat) :
    c ∈ afterColorDigits most t := by
  induction t generalizing most with
  | nil => cases hc
  | cons d t ih =>
    cases most with
    | zero => exact hc
    | succ most =>
      rw [afterColorDigits]
      split
      next hd =>
        refine ih ((List.mem_cons.1 hc).resolve_left ?_) most
        rintro rfl
        rw [hdigit] at hd
        cases hd
      next => exact hc

theorem plus_not_mem_color (h : isColor t = true) : '+' ∉ t := by
  intro hplus
  rw [isColor.eq_def] at h
  split at h
  next rest =>
    have hrest : '+' ∈ rest := (List.mem_cons.1 hplus).resolve_left (by decide)
    rw [List.isEmpty_iff] at h
    simpa [h] using mem_afterColorDigits hrest (by decide) 6
  next => cases h

theorem plus_not_mem_propertyColor (h : isPropertyColor t = true) : '+' ∉ t := by
  intro hplus
  have hname : '+' ∈ t.dropWhile isAsciiLetter := by
    rw [← List.takeWhile_append_dropWhile (p := isAsciiLetter) (l := t), List.mem_append] at hplus
    refine hplus.resolve_left fun hletter => ?_
    exact absurd (List.all_eq_true.1 List.all_takeWhile _ hletter) (by decide)
  rw [isPropertyColor, Bool.and_eq_true] at h
  have hvalue := h.2
  split at hvalue
  next rest heq =>
    have hrest : '+' ∈ '#' :: rest := by
      rw [← heq]
      split
      next more hmore =>
        rw [hmore] at hname
        exact (List.mem_cons.1 hname).resolve_left (by decide)
      next => exact hname
    have hleft := mem_afterColorDigits ((List.mem_cons.1 hrest).resolve_left (by decide)) (by decide) 6
    simp only [Bool.or_eq_true, List.isEmpty_iff, beq_iff_eq] at hvalue
    rcases hvalue with (hnone | hbang) | himportant
    · simp [hnone] at hleft
    · simp [hbang] at hleft
    · rw [himportant] at hleft
      exact absurd hleft (by decide)
  next => cases hvalue

/-! ## Joining -/

theorem isStylesheet_eq_true_iff :
    isStylesheet t = true ↔ isEmptyOrDigits t = false ∧ t.getLast? ≠ some ':' ∧
      if '#' ∈ t then isColor t = true ∨ isPropertyColor t = true else isStylesheetRun t = true := by
  rw [isStylesheet]
  by_cases hword : isEmptyOrDigits t = true
  · simp [hword]
  by_cases hlast : t.getLast? = some ':'
  · simp [hlast]
  by_cases hhash : '#' ∈ t
  · simp [hword, hlast, hhash]
  · simp [hword, hlast, hhash]

/-- **Stylesheet abbreviations may be joined by `+` exactly when neither holds a colour.** -/
theorem isStylesheet_plus_iff (hs : isStylesheet s = true) (ht : isStylesheet t = true) :
    isStylesheet (s ++ '+' :: t) = true ↔ '#' ∉ s ∧ '#' ∉ t := by
  obtain ⟨-, -, hs⟩ := isStylesheet_eq_true_iff.1 hs
  obtain ⟨hword, hlast, ht⟩ := isStylesheet_eq_true_iff.1 ht
  have hplus : '+' ∈ s ++ '+' :: t := by simp
  have hhash : '#' ∉ s ++ '+' :: t ↔ '#' ∉ s ∧ '#' ∉ t := by simp
  rw [isStylesheet_eq_true_iff, ← hhash]
  constructor
  · rintro ⟨-, -, hjoined⟩ hcolor
    rw [if_pos hcolor] at hjoined
    rcases hjoined with hjoined | hjoined
    · exact plus_not_mem_color hjoined hplus
    · exact plus_not_mem_propertyColor hjoined hplus
  · intro hnone
    obtain ⟨hs', ht'⟩ := hhash.1 hnone
    rw [if_neg hs'] at hs
    rw [if_neg ht'] at ht
    have hne : t ≠ [] := by
      rintro rfl
      cases hword
    refine ⟨List.all_eq_false.2 ⟨'+', hplus, by decide⟩, ?_, ?_⟩
    · rwa [List.append_cons, List.getLast?_append_of_ne_nil _ hne]
    · rw [if_neg hnone]
      exact isStylesheetRun_append hs (List.forall_mem_cons.2 ⟨by decide, isStylesheetChar_of_run ht⟩)

/-- A vendor prefix on either side, and a value at the end. -/
theorem isStylesheet_plus_iff_prefixes :
    let s := "-wm-trf".toList
    let t := "-p10+pos:a!".toList
    isStylesheet s = true ∧ isStylesheet t = true ∧ isStylesheet (s ++ '+' :: t) = true := by
  intro s t
  have hs : isStylesheet s = true := by decide +kernel
  have ht : isStylesheet t = true := by decide +kernel
  exact ⟨hs, ht, (isStylesheet_plus_iff hs ht).2 (by decide)⟩

/-- **A colour is not joined to anything**: `c#fff+m10` is no abbreviation. -/
theorem isStylesheet_plus_not_always :
    ¬ ∀ s t, isStylesheet s = true → isStylesheet t = true → isStylesheet (s ++ '+' :: t) = true := by
  intro claim
  have hjoined := claim "c#fff".toList "m10".toList (by decide +kernel) (by decide +kernel)
  exact absurd hjoined (by decide +kernel)

end Shorthand.Abbreviation
