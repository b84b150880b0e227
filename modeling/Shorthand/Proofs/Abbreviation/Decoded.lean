/-
What is read from a text, put together again. In an abbreviation that was read no bar is escaped: the
backslash before one was taken away. Joined with its filters by bars it is therefore read back just
when there is no bar in it (`ofText?_joinWith_iff`).
-/
import Shorthand.Proofs.Abbreviation.FilterSuffix
import Shorthand.Proofs.Abbreviation.Paired

namespace Shorthand.Abbreviation

open Text (isAsciiAlphanumeric Blank)

variable {s t : Text} {found : Filtered}

/-! ## What is read -/

/-- An abbreviation and filters as they are read from a text. -/
structure Decoded (found : Filtered) : Prop where
  nonempty : found.abbreviation ≠ []
  trimmed : Text.trim found.abbreviation = found.abbreviation
  unescaped : .escaped '|' ∉ signs found.abbreviation
  alphanumeric : Alphanumeric found.filters
  named : [] ∉ found.filters

/-- The backslash before a bar is taken away. -/
theorem escaped_bar_not_mem_splitAtBar (t : Text) : .escaped '|' ∉ signs (splitAtBar t).1 := by
  induction t using sign_induction with
  | nil => exact List.not_mem_nil
  | last => decide
  | bare c rest hc ih =>
    by_cases hbar : c = '|'
    · subst hbar
      exact List.not_mem_nil
    · rw [splitAtBar_bare hc hbar, signs_cons hc, List.mem_cons, not_or]
      exact ⟨Sign.noConfusion, ih⟩
  | escaped c rest ih =>
    rw [splitAtBar_escaped, Sign.resolved]
    split
    next =>
      rw [List.singleton_append, signs_cons (by decide), List.mem_cons, not_or]
      exact ⟨Sign.noConfusion, ih⟩
    next hbar =>
      rw [List.cons_append, List.singleton_append, signs, List.mem_cons, not_or]
      exact ⟨fun h => hbar (Sign.escaped.inj h).symm, ih⟩

theorem filterNames_alphanumeric (suffix : Text) : Alphanumeric (filterNames suffix) := by
  intro name hname c hc
  obtain ⟨piece, -, rfl⟩ := List.mem_map.1 (List.mem_of_mem_filter hname)
  exact List.mem_takeWhile_imp hc

theorem nil_not_mem_filterNames (suffix : Text) : [] ∉ filterNames suffix :=
  fun h => absurd (List.mem_filter.1 h).2 (by decide)

theorem decoded_of_ofText? (h : Filtered.ofText? t = some found) : Decoded found := by
  rw [Filtered.ofText?, Option.ite_none_left_eq_some, Option.some.injEq, List.isEmpty_iff] at h
  obtain ⟨hne, rfl⟩ := h
  refine ⟨hne, Text.trim_trim _, fun hmem => ?_, ?_, ?_⟩
  · exact escaped_bar_not_mem_splitAtBar _ (mem_signs_of_trim (by decide) hmem)
  · cases (splitAtBar (Text.trim t)).2 with
    | none => exact fun g hg => absurd hg List.not_mem_nil
    | some suffix => exact filterNames_alphanumeric suffix
  · cases (splitAtBar (Text.trim t)).2 with
    | none => exact List.not_mem_nil
    | some suffix => exact nil_not_mem_filterNames suffix

/-! ## Reading it again -/

/-- Nothing is resolved where no bar is escaped. -/
theorem resolve_eq_self (h : .escaped '|' ∉ signs t) : resolve t = t := by
  calc (signs t).flatMap Sign.resolved
    _ = (signs t).flatMap Sign.text := by
        refine List.flatMap_congr fun sign hsign => ?_
        cases sign with
        | bare c => rfl
        | escaped c =>
          have hc : c ≠ '|' := by
            rintro rfl
            exact h hsign
          exact if_neg hc
    _ = t := flatMap_text_signs t

theorem bare_bar_mem_iff (h : .escaped '|' ∉ signs t) : .bare '|' ∈ signs t ↔ '|' ∈ t := by
  have htext : '|' ∈ t ↔ ∃ sign ∈ signs t, '|' ∈ sign.text := by
    rw [← List.mem_flatMap, flatMap_text_signs]
  rw [htext]
  constructor
  · exact fun hmem => ⟨_, hmem, List.mem_singleton_self _⟩
  · rintro ⟨sign, hsign, hmem⟩
    cases sign with
    | bare c =>
      obtain rfl := List.mem_singleton.1 hmem
      exact hsign
    | escaped c =>
      obtain rfl : '|' = c := by simpa [Sign.text] using hmem
      exact absurd hsign h

/-- A bar is what reading stops at. -/
theorem length_splitAtBar_lt (h : .bare '|' ∈ signs s) (t : Text) : (splitAtBar (s ++ t)).1.length < s.length := by
  induction s using sign_induction with
  | nil => cases h
  | last => cases List.mem_singleton.1 h
  | bare c s hc ih =>
    by_cases hbar : c = '|'
    · subst hbar
      exact Nat.succ_pos _
    · rw [signs_cons hc, List.mem_cons] at h
      have hs := h.resolve_left fun heq => hbar (Sign.bare.inj heq).symm
      rw [List.cons_append, splitAtBar_bare hc hbar]
      exact Nat.succ_lt_succ (ih hs)
  | escaped c s ih =>
    rw [signs, List.mem_cons] at h
    have hs := ih (h.resolve_left Sign.noConfusion)
    rw [List.cons_append, List.cons_append, splitAtBar_escaped, List.length_append]
    have hresolved : (Sign.escaped c).resolved.length ≤ 2 := by
      rw [Sign.resolved]
      split <;> simp
    simp only [List.length_cons]
    omega

theorem trim_append_suffixOf {groups : List Text} (hnames : Alphanumeric groups) (htrim : Text.trim t = t)
    (hne : t ≠ []) : Text.trim (t ++ suffixOf groups) = t ++ suffixOf groups := by
  cases groups with
  | nil =>
    rw [suffixOf, List.flatMap_nil, List.append_nil]
    exact htrim
  | cons g gs =>
    have hblank : ¬ Blank t := by rwa [← Text.trim_eq_nil_iff, htrim]
    rw [Text.trim, Text.trimStart_append hblank, Text.trimStart_of_trim htrim,
      trimEnd_append_suffixOf hnames (List.cons_ne_nil g gs)]

/-- **What was read is read back just when there is no bar in the abbreviation.** It is written with
a bar before each filter; where there is a bar in it, reading stops there. -/
theorem ofText?_joinWith_iff (h : Decoded found) (hpaired : Paired found.abbreviation) :
    Filtered.ofText? (Text.joinWith ['|'] (found.abbreviation :: found.filters)) = some found ↔
      '|' ∉ found.abbreviation := by
  rw [joinWith_bar]
  constructor
  · intro hread hbar
    rw [Filtered.ofText?, trim_append_suffixOf h.alphanumeric h.trimmed h.nonempty,
      Option.ite_none_left_eq_some, Option.some.injEq] at hread
    have hlt := length_splitAtBar_lt ((bare_bar_mem_iff h.unescaped).2 hbar) (suffixOf found.filters)
    have hle := (Text.trim_sublist (splitAtBar (found.abbreviation ++ suffixOf found.filters)).1).length_le
    have heq := congrArg (·.abbreviation.length) hread.2
    simp only at heq
    omega
  · intro hbar
    have hblank : ¬ Blank found.abbreviation := by
      rw [← Text.trim_eq_nil_iff, h.trimmed]
      exact h.nonempty
    have hall : found.filters.filter (!·.isEmpty) = found.filters := by
      refine List.filter_eq_self.2 fun f hf => ?_
      have hf : f ≠ [] := fun hnil => h.named (hnil ▸ hf)
      simpa using hf
    have hbare := mt (bare_bar_mem_iff h.unescaped).1 hbar
    rw [Filtered.ofText?_append h.alphanumeric hbare (fun _ => hpaired) hblank, resolve_eq_self h.unescaped,
      h.trimmed, hall]

end Shorthand.Abbreviation
