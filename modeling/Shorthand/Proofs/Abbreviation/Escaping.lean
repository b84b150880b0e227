/-
Writing an abbreviation so that it is read back: a backslash before each bar, and the filters behind.
-/
import Shorthand.Proofs.Abbreviation.FilterSuffix

namespace Shorthand.Abbreviation

open Text (Blank)

/-- The text with a backslash before each bar. -/
def escapeBars (t : Text) : Text := t.flatMap fun c => if c = '|' then ['\\', '|'] else [c]

/-- The sign with a backslash before it when it is a bar. -/
def Sign.barEscaped : Sign → Sign
  | bare c => if c = '|' then escaped '|' else bare c
  | escaped c => escaped c

variable {t : Text}

theorem escapeBars_cons (c : Char) (rest : Text) :
    escapeBars (c :: rest) = (if c = '|' then ['\\', '|'] else [c]) ++ escapeBars rest := rfl

/-- The bars are the only signs that change, when no backslash takes one of the new ones with it. -/
theorem signs_escapeBars (hbar : .escaped '|' ∉ signs t) (hend : .bare '\\' ∉ signs t) :
    signs (escapeBars t) = (signs t).map Sign.barEscaped := by
  induction t using sign_induction with
  | nil => rfl
  | last => exact absurd List.mem_cons_self hend
  | bare c rest hc ih =>
    rw [signs_cons hc] at hbar hend ⊢
    have ih := ih (mt (List.mem_cons_of_mem _) hbar) (mt (List.mem_cons_of_mem _) hend)
    rw [escapeBars_cons, List.map_cons, Sign.barEscaped, ← ih]
    by_cases hpipe : c = '|'
    · rw [if_pos hpipe, if_pos hpipe]
      rfl
    · rw [if_neg hpipe, if_neg hpipe, List.singleton_append, signs_cons hc]
  | escaped c rest ih =>
    rw [signs] at hbar hend ⊢
    have ih := ih (mt (List.mem_cons_of_mem _) hbar) (mt (List.mem_cons_of_mem _) hend)
    have hpipe : c ≠ '|' := by
      rintro rfl
      exact hbar List.mem_cons_self
    rw [escapeBars_cons, escapeBars_cons, if_neg hpipe, if_neg (by decide), List.map_cons, ← ih]
    rfl

theorem Sign.barEscaped_ne_bar (sign : Sign) : sign.barEscaped ≠ .bare '|' := by
  cases sign with
  | bare c =>
    rw [barEscaped]
    split
    next => exact nofun
    next hc => exact fun h => hc (Sign.bare.inj h)
  | escaped c => exact nofun

theorem Sign.eq_of_barEscaped_eq_bare {sign : Sign} {c : Char} (h : sign.barEscaped = .bare c) : sign = .bare c := by
  cases sign with
  | bare c' =>
    rw [barEscaped] at h
    split at h
    next => cases h
    next => exact h
  | escaped c' => cases h

theorem resolve_escapeBars (hbar : .escaped '|' ∉ signs t) (hend : .bare '\\' ∉ signs t) :
    resolve (escapeBars t) = t := by
  rw [resolve, signs_escapeBars hbar hend, List.flatMap_map]
  calc (signs t).flatMap (fun sign => sign.barEscaped.resolved)
    _ = (signs t).flatMap Sign.text := by
        refine List.flatMap_congr fun sign hsign => ?_
        cases sign with
        | bare c =>
          by_cases hc : c = '|'
          · rw [hc]
            rfl
          · rw [Sign.barEscaped, if_neg hc]
            rfl
        | escaped c =>
          have hc : c ≠ '|' := by
            rintro rfl
            exact hbar hsign
          exact if_neg hc
    _ = t := flatMap_text_signs t

/-- **An abbreviation and its filters are read back.** The abbreviation is any text that no blank
begins or ends, in which no bar is escaped and no backslash is left at the end; it is written with a
backslash before each bar, and each filter behind a bar. -/
theorem ofText?_escapeBars {b : Text} {filters : List Text} (hne : b ≠ []) (htrim : Text.trim b = b)
    (hbar : .escaped '|' ∉ signs b) (hend : .bare '\\' ∉ signs b) (hnames : Alphanumeric filters)
    (hfilters : [] ∉ filters) :
    Filtered.ofText? (escapeBars b ++ filters.flatMap ('|' :: ·)) = some ⟨b, filters⟩ := by
  have hsigns := signs_escapeBars hbar hend
  have hresolve := resolve_escapeBars hbar hend
  have hbare : .bare '|' ∉ signs (escapeBars b) := by
    rw [hsigns]
    intro h
    obtain ⟨sign, -, h⟩ := List.mem_map.1 h
    exact sign.barEscaped_ne_bar h
  have hlast : .bare '\\' ∉ signs (escapeBars b) := by
    rw [hsigns]
    intro h
    obtain ⟨sign, hsign, h⟩ := List.mem_map.1 h
    exact hend (Sign.eq_of_barEscaped_eq_bare h ▸ hsign)
  have hblank : ¬ Blank (escapeBars b) := by
    intro h
    rw [resolve_blank h] at hresolve
    rw [hresolve, ← Text.trim_eq_nil_iff, htrim] at h
    exact hne h
  have hall : filters.filter (!·.isEmpty) = filters := by
    refine List.filter_eq_self.2 fun f hf => ?_
    have hf : f ≠ [] := fun h => hfilters (h ▸ hf)
    simpa using hf
  have hread := Filtered.ofText?_append hnames hbare (fun _ => hlast) hblank
  rwa [hresolve, htrim, hall] at hread

/-- A bar between two pairs of backslashes, blanks and a bar at the end, and three filters. -/
theorem ofText?_escapeBars_mixed :
    escapeBars "a\\\\|\\\\\\\\b \\ c||".toList = "a\\\\\\|\\\\\\\\b \\ c\\|\\|".toList ∧
    Filtered.ofText? "a\\\\\\|\\\\\\\\b \\ c\\|\\||bem|c|2".toList =
      some ⟨"a\\\\|\\\\\\\\b \\ c||".toList, ["bem".toList, ['c'], ['2']]⟩ :=
  ⟨by decide, @ofText?_escapeBars "a\\\\|\\\\\\\\b \\ c||".toList ["bem".toList, ['c'], ['2']]
    nofun (by decide) (by decide) (by decide) (by decide) (by decide)⟩

end Shorthand.Abbreviation
