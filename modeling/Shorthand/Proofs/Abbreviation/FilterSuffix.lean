/-
The filters behind an abbreviation. They are split off a text in two ways: from its end, by the
longest run of groups (`splitFilterSuffix`), and from its start, at the first bar that is not escaped
(`Filtered.ofText?`).

`exists_filterSplit` says what the first one gives, `Filtered.ofText?_append` what the second one
reads of such a body and its groups.
-/
import Shorthand.Proofs.Abbreviation.EscapePair
import Shorthand.Proofs.Files.PathText

namespace Shorthand.Abbreviation

open Text (isAsciiAlphanumeric isBlank Blank)

/-- Groups as they are written behind an abbreviation: each has a bar before it. -/
def suffixOf (groups : List Text) : Text := groups.flatMap ('|' :: ·)

/-- Every group is made of letters and digits. -/
def Alphanumeric (groups : List Text) : Prop := ∀ g ∈ groups, ∀ c ∈ g, isAsciiAlphanumeric c = true

instance (groups : List Text) : Decidable (Alphanumeric groups) :=
  decidable_of_iff (groups.all (·.all isAsciiAlphanumeric) = true) (by simp only [List.all_eq_true, Alphanumeric])

variable {groups : List Text} {t part : Text}

/-! ## Groups -/

theorem joinWith_bar (first : Text) (groups : List Text) :
    Text.joinWith ['|'] (first :: groups) = first ++ suffixOf groups := by
  induction groups generalizing first with
  | nil => rw [Text.joinWith, List.intercalate_singleton, suffixOf, List.flatMap_nil, List.append_nil]
  | cons g gs ih =>
    rw [Text.joinWith, List.intercalate_cons_cons, ← Text.joinWith, ih, List.append_assoc]
    rfl

theorem suffixOf_cons (g : Text) (gs : List Text) :
    suffixOf (g :: gs) = '|' :: Text.joinWith ['|'] (g :: gs) := by
  rw [joinWith_bar]
  rfl

theorem Alphanumeric.mem_suffixOf (h : Alphanumeric groups) {c : Char} (hc : c ∈ suffixOf groups) :
    c = '|' ∨ isAsciiAlphanumeric c = true := by
  obtain ⟨g, hg, hc⟩ := List.mem_flatMap.1 hc
  exact (List.mem_cons.1 hc).imp id (h g hg c)

theorem Alphanumeric.not_mem_suffixOf (h : Alphanumeric groups) {c : Char} (hbar : c ≠ '|')
    (hc : isAsciiAlphanumeric c = false) : c ∉ suffixOf groups := by
  intro hmem
  rcases h.mem_suffixOf hmem with rfl | hname
  · exact hbar rfl
  · rw [hc] at hname
    cases hname

theorem isBlank_of_alphanumeric {c : Char} (h : isAsciiAlphanumeric c = true) : isBlank c = false := by
  have hcases : ((decide ('A'.val ≤ c.val ∧ c.val ≤ 'Z'.val) || (decide ('a'.val ≤ c.val) && decide (c.val ≤ 'z'.val))) ||
      (decide ('0'.val ≤ c.val) && decide (c.val ≤ '9'.val))) = true := h
  simp only [Bool.or_eq_true, Bool.and_eq_true, decide_eq_true_eq, UInt32.le_iff_toNat_le] at hcases
  have hrange : ((65 ≤ c.toNat ∧ c.toNat ≤ 90) ∨ (97 ≤ c.toNat ∧ c.toNat ≤ 122)) ∨ (48 ≤ c.toNat ∧ c.toNat ≤ 57) :=
    hcases
  -- The letters and digits lie between the second and the third range of blanks.
  rw [isBlank, Text.blanks, Text.Ranges.contains, Text.Ranges.contains, Text.Ranges.contains]
  simp
  omega

/-- The names are read back from the groups, and a group without a name is passed over. -/
theorem filterNames_join (g : Text) (gs : List Text) (h : Alphanumeric (g :: gs)) :
    filterNames (Text.joinWith ['|'] (g :: gs)) = (g :: gs).filter (!·.isEmpty) := by
  have hbar : ∀ piece ∈ g :: gs, '|' ∉ piece := by
    intro piece hpiece hmem
    exact absurd (h piece hpiece '|' hmem) (by decide)
  have hwhole : (g :: gs).map (·.takeWhile isAsciiAlphanumeric) = (g :: gs).map id :=
    List.map_congr_left fun piece hpiece => List.takeWhile_eq_self_iff.2 (h piece hpiece)
  rw [filterNames, Text.splitOn_eq, Text.joinWith, List.splitOn_intercalate '|' hbar (List.cons_ne_nil g gs),
    hwhole, List.map_id]

/-- Groups end in no blank. -/
theorem trimEnd_append_suffixOf (hnames : Alphanumeric groups) (hne : groups ≠ []) (t : Text) :
    Text.trimEnd (t ++ suffixOf groups) = t ++ suffixOf groups := by
  rw [Text.trimEnd_eq, List.rdropWhile_eq_self_iff]
  intro hlast
  have hsuffix : suffixOf groups ≠ [] := by
    obtain ⟨g, gs, rfl⟩ := List.exists_cons_of_ne_nil hne
    exact List.cons_ne_nil _ _
  rw [List.getLast_append_of_ne_nil hlast hsuffix]
  rcases hnames.mem_suffixOf (List.getLast_mem hsuffix) with hbar | hname
  · rw [hbar]
    decide
  · rw [isBlank_of_alphanumeric hname]
    exact Bool.false_ne_true

/-! ## From the start -/

/-- **A part without an unescaped bar is read with the groups behind it.** No backslash may be left at
its end when there are groups, since it would take the first bar with it. -/
theorem Filtered.ofText?_append (hnames : Alphanumeric groups) (hbar : .bare '|' ∉ signs part)
    (hend : groups ≠ [] → .bare '\\' ∉ signs part) (hblank : ¬ Blank part) :
    Filtered.ofText? (part ++ suffixOf groups) =
      some ⟨Text.trim (resolve part), groups.filter (!·.isEmpty)⟩ := by
  have hne : (Text.trim (resolve part)).isEmpty = false := by
    rw [Bool.eq_false_iff, Ne, List.isEmpty_iff, Text.trim_eq_nil_iff]
    exact mt blank_of_resolve hblank
  cases groups with
  | nil =>
    have hbar : .bare '|' ∉ signs (Text.trim part) := mt (mem_signs_of_trim (by decide)) hbar
    rw [suffixOf, List.flatMap_nil, List.append_nil, Filtered.ofText?, splitAtBar_of_not_mem hbar]
    simp only [trim_resolve_trim, hne]
    rfl
  | cons g gs =>
    have htrim : Text.trim (part ++ suffixOf (g :: gs)) = Text.trimStart part ++ suffixOf (g :: gs) := by
      rw [Text.trim, Text.trimStart_append hblank, trimEnd_append_suffixOf hnames (List.cons_ne_nil g gs)]
    have hbar : .bare '|' ∉ signs (Text.trimStart part) := mt mem_signs_of_trimStart hbar
    have hend : .bare '\\' ∉ signs (Text.trimStart part) := mt mem_signs_of_trimStart (hend (List.cons_ne_nil g gs))
    rw [Filtered.ofText?, htrim, suffixOf_cons, splitAtBar_append_bar hbar hend]
    simp only [trim_resolve_trimStart, hne, Option.map_some, filterNames_join g gs hnames]
    rfl

/-! ## From the end -/

theorem exists_groups_of_isFilterSuffix (h : isFilterSuffix t = true) (hline : '\n' ∉ t) :
    ∃ groups, t = suffixOf groups ∧ Alphanumeric groups := by
  rw [isFilterSuffix.eq_def] at h
  split at h
  next rest =>
    have hlast : (rest.getLast? == some '\n') = false := by
      rw [beq_eq_false_iff_ne]
      exact fun hlast => hline (List.mem_cons_of_mem _ (List.mem_of_getLast? hlast))
    simp only [hlast, Bool.false_eq_true, if_false, List.all_eq_true, Bool.or_eq_true, beq_iff_eq] at h
    have hjoin : Text.joinWith ['|'] (Text.splitOn '|' rest) = rest := by
      rw [Text.splitOn_eq, Text.joinWith, List.intercalate_splitOn]
    obtain ⟨g, gs, hpieces⟩ : ∃ g gs, Text.splitOn '|' rest = g :: gs := by
      rw [Text.splitOn_eq]
      exact List.exists_cons_of_ne_nil (List.splitOn_ne_nil '|' rest)
    refine ⟨g :: gs, by rw [suffixOf_cons, ← hpieces, hjoin], fun piece hpiece c hc => ?_⟩
    have hrest : c ∈ '|' :: rest := by
      rw [← hjoin, hpieces, ← suffixOf_cons]
      exact List.mem_flatMap.2 ⟨piece, hpiece, List.mem_cons_of_mem _ hc⟩
    have hbar : c ≠ '|' := by
      rintro rfl
      exact Text.not_mem_of_mem_splitOn (hpieces ▸ hpiece) hc
    exact (h c ((List.mem_cons.1 hrest).resolve_left hbar)).resolve_left hbar
  next => cases h

theorem drop_filterSuffixStart (t : Text) :
    t.drop (filterSuffixStart t) = [] ∨ isFilterSuffix (t.drop (filterSuffixStart t)) = true := by
  induction t with
  | nil => exact .inl rfl
  | cons c rest ih =>
    rw [filterSuffixStart]
    split
    next h => exact .inr h
    next => exact ih

/-- A text is a body and groups behind it, and is read as the two on their own. -/
structure FilterSplit (t body : Text) (groups : List Text) : Prop where
  append : t = body ++ suffixOf groups
  signs : signs t = signs body ++ signs (suffixOf groups)
  names : Alphanumeric groups

namespace FilterSplit

variable {body : Text}

theorem maskEscapes_eq (h : FilterSplit t body groups) :
    maskEscapes t = maskEscapes body ++ suffixOf groups := by
  have hmask : maskEscapes (suffixOf groups) = suffixOf groups :=
    maskEscapes_of_not_mem (h.names.not_mem_suffixOf (by decide) (by decide))
  have happend := maskEscapes_append (h.append ▸ h.signs)
  rwa [← h.append, hmask] at happend

/-- An underscore of the masked text is one of the masked body. -/
theorem getElem?_body (h : FilterSplit t body groups) {i : Nat} (hi : (maskEscapes t)[i]? = some '_') :
    (maskEscapes body)[i]? = some '_' := by
  have hunder : '_' ∉ suffixOf groups := h.names.not_mem_suffixOf (by decide) (by decide)
  rw [h.maskEscapes_eq, List.getElem?_append] at hi
  split at hi
  next => exact hi
  next => exact absurd (List.mem_of_getElem? hi) hunder

/-- No backslash is left at the end of a body with groups behind it. -/
theorem not_mem_signs (h : FilterSplit t body groups) (hne : groups ≠ []) : .bare '\\' ∉ Abbreviation.signs body := by
  obtain ⟨g, gs, rfl⟩ := List.exists_cons_of_ne_nil hne
  exact not_mem_of_signs_append (h.append ▸ h.signs) (by rw [suffixOf_cons]; exact List.cons_ne_nil _ _)

end FilterSplit

/-- Groups that end a masked text end the text: no pair is parted before them, since the bar that
begins them is no underscore. -/
theorem filterSplit_of_drop {i : Nat} (h : (maskEscapes t).drop i = suffixOf groups) (hnames : Alphanumeric groups) :
    t.drop i = suffixOf groups ∧ FilterSplit t (t.take i) groups := by
  have hunder : '_' ∉ suffixOf groups := hnames.not_mem_suffixOf (by decide) (by decide)
  have hsigns : signs t = signs (t.take i) ++ signs (t.drop i) := by
    refine signs_take_drop fun _ _ hmem => hunder ?_
    rw [← h]
    exact List.mem_of_mem_head? (by rw [List.head?_drop, hmem]; rfl)
  have hdrop : t.drop i = suffixOf groups := by
    have hmask : maskEscapes (t.drop i) = suffixOf groups := by rw [maskEscapes_drop hsigns, h]
    rw [← hmask] at hunder
    rw [← hmask, maskEscapes_eq_self hunder]
  rw [hdrop] at hsigns
  exact ⟨hdrop, by rw [← hdrop, List.take_append_drop], hsigns, hnames⟩

/-- **The groups at the end of a line are split off.** -/
theorem exists_filterSplit (hline : '\n' ∉ t) :
    ∃ body groups, splitFilterSuffix t = (body, suffixOf groups) ∧ FilterSplit t body groups := by
  have hgroups : ∃ groups, (maskEscapes t).drop (filterSuffixStart (maskEscapes t)) = suffixOf groups ∧
      Alphanumeric groups := by
    rcases drop_filterSuffixStart (maskEscapes t) with hnone | hsuffix
    · exact ⟨[], hnone, nofun⟩
    · have hfeed : '\n' ∉ (maskEscapes t).drop (filterSuffixStart (maskEscapes t)) := fun hmem =>
        hline (mem_of_mem_maskEscapes (List.mem_of_mem_drop hmem) (by decide))
      exact exists_groups_of_isFilterSuffix hsuffix hfeed
  obtain ⟨groups, hdrop, hnames⟩ := hgroups
  obtain ⟨hsuffix, hsplit⟩ := filterSplit_of_drop hdrop hnames
  exact ⟨_, groups, by rw [splitFilterSuffix, List.splitAt_eq, hsuffix], hsplit⟩

end Shorthand.Abbreviation
