/-
The filter groups that `splitFilterSuffix` splits off a line: no others at its end are more
(`splitFilterSuffix_longest`). The search runs over the masked line and the cut is made in the line
itself, so that masking has to keep every character in its place: `getElem?_maskEscapes` and
`getElem?_maskEscapes_of_inPair` say which character of a masked text stands where.
-/
import Shorthand.Proofs.Abbreviation.FilterSuffix

namespace Shorthand.Abbreviation

variable {t rest : Text} {i : Nat}

/-! ## Places -/

/-- A backslash takes the character at an index. -/
def TakenAt (t : Text) (i : Nat) : Prop :=
  ∃ before c after, signs t = before ++ .escaped c :: after ∧ i = (before.flatMap Sign.text).length + 1

/-- The character at an index is one of a pair: the backslash or what it takes. -/
def InPair (t : Text) (i : Nat) : Prop := TakenAt t i ∨ TakenAt t (i + 1)

theorem takenAt_escaped (c : Char) (rest : Text) : TakenAt ('\\' :: c :: rest) 1 := ⟨[], c, signs rest, rfl, rfl⟩

theorem TakenAt.cons {c : Char} (hc : c ≠ '\\') (h : TakenAt rest i) : TakenAt (c :: rest) (i + 1) := by
  obtain ⟨before, c', after, hsigns, rfl⟩ := h
  refine ⟨.bare c :: before, c', after, by rw [signs_cons hc, hsigns]; rfl, ?_⟩
  rw [List.flatMap_cons, List.length_append, Nat.add_comm _ (List.length _)]
  rfl

theorem TakenAt.pair (h : TakenAt rest i) (c : Char) : TakenAt ('\\' :: c :: rest) (i + 2) := by
  obtain ⟨before, c', after, hsigns, rfl⟩ := h
  refine ⟨.escaped c :: before, c', after, by rw [signs, hsigns]; rfl, ?_⟩
  rw [List.flatMap_cons, List.length_append, Nat.add_comm _ (List.length _)]
  rfl

theorem length_flatMap_masked (before : List Sign) :
    (before.flatMap Sign.masked).length = (before.flatMap Sign.text).length := by
  induction before with
  | nil => rfl
  | cons sign before ih =>
    rw [List.flatMap_cons, List.flatMap_cons, List.length_append, List.length_append, ih]
    cases sign <;> rfl

/-- A pair is masked as two underscores. -/
theorem getElem?_maskEscapes_of_inPair (h : InPair t i) : (maskEscapes t)[i]? = some '_' := by
  obtain ⟨before, c, after, hsigns, hi⟩ | ⟨before, c, after, hsigns, hi⟩ := h
  · rw [maskEscapes_eq, hsigns, List.flatMap_append, hi, ← length_flatMap_masked,
      List.getElem?_append_right (Nat.le_succ _), Nat.succ_sub (Nat.le_refl _), Nat.sub_self]
    rfl
  · rw [maskEscapes_eq, hsigns, List.flatMap_append, Nat.succ.inj hi, ← length_flatMap_masked,
      List.getElem?_append_right (Nat.le_refl _), Nat.sub_self]
    rfl

/-- **What is in no pair stays what it is and where it is.** -/
theorem getElem?_maskEscapes (h : ¬ InPair t i) : (maskEscapes t)[i]? = t[i]? := by
  induction t using sign_induction generalizing i with
  | nil => rfl
  | last => rfl
  | bare c rest hc ih =>
    rw [maskEscapes_cons hc]
    cases i with
    | zero => rfl
    | succ i => exact ih fun hrest => h (hrest.imp (.cons hc) (.cons hc))
  | escaped c rest ih =>
    match i with
    | 0 => exact absurd (.inr (takenAt_escaped c rest)) h
    | 1 => exact absurd (.inl (takenAt_escaped c rest)) h
    | i + 2 => exact ih fun hrest => h (hrest.imp (·.pair c) (·.pair c))

/-- Only the very last character of a masked text may be a backslash. -/
theorem eq_length_of_getElem?_maskEscapes (h : (maskEscapes t)[i]? = some '\\') : i + 1 = t.length := by
  induction t using sign_induction generalizing i with
  | nil => cases h
  | last =>
    cases i with
    | zero => rfl
    | succ i => cases h
  | bare c rest hc ih =>
    rw [maskEscapes_cons hc] at h
    cases i with
    | zero => exact absurd (Option.some.inj h) hc
    | succ i => rw [ih h, List.length_cons]
  | escaped c rest ih =>
    match i with
    | 0 | 1 => cases h
    | i + 2 => rw [Nat.succ_add, Nat.succ_add, ih h, List.length_cons, List.length_cons]

/-! ## Groups at the end -/

/-- A text ends in filter groups: letters and digits behind bars of which none is taken by a backslash. -/
structure EndsInGroups (t body : Text) (groups : List Text) : Prop where
  append : t = body ++ suffixOf groups
  names : Alphanumeric groups
  free : ∀ i, body.length ≤ i → t[i]? = some '|' → ¬ TakenAt t i

variable {body body' : Text} {groups groups' : List Text}

/-- No bar is taken just when the cut before the first one parts no pair. -/
theorem endsInGroups_iff : EndsInGroups t body groups ↔ FilterSplit t body groups := by
  constructor
  · rintro ⟨rfl, hnames, hfree⟩
    refine ⟨rfl, ?_, hnames⟩
    rcases signs_append_cases body (suffixOf groups) with happ | ⟨body', c, rest, rfl, hsuffix, -, hpair⟩
    · exact happ
    · obtain ⟨g, gs, rfl⟩ : ∃ g gs, groups = g :: gs := by
        refine List.exists_cons_of_ne_nil ?_
        rintro rfl
        cases hsuffix
      refine absurd ⟨signs body', c, signs rest, hpair, ?_⟩ (hfree (body' ++ ['\\']).length (Nat.le_refl _) ?_)
      · rw [List.getElem?_append_right (Nat.le_refl _), Nat.sub_self, suffixOf_cons]
        rfl
      · rw [flatMap_text_signs, List.length_append]
        rfl
  · intro h
    refine ⟨h.append, h.names, fun i hi _ htaken => ?_⟩
    have hbody := h.getElem?_body (getElem?_maskEscapes_of_inPair (.inl htaken))
    have hlt := (List.getElem?_eq_some_iff.1 hbody).1
    rw [length_maskEscapes] at hlt
    omega

/-- Groups at the end of a body go on in the groups behind it. -/
theorem FilterSplit.trans (h : FilterSplit t body groups) (h' : FilterSplit body body' groups') :
    FilterSplit t body' (groups' ++ groups) := by
  have hsuffix : suffixOf (groups' ++ groups) = suffixOf groups' ++ suffixOf groups := List.flatMap_append
  have hbackslash : '\\' ∉ suffixOf groups' := h'.names.not_mem_suffixOf (by decide) (by decide)
  refine ⟨by rw [h.append, h'.append, hsuffix, List.append_assoc], ?_, fun g hg => ?_⟩
  · rw [h.signs, h'.signs, hsuffix, signs_append_of_not_mem hbackslash, signs_of_not_mem hbackslash, List.append_assoc]
  · exact (List.mem_append.1 hg).elim (h'.names g) (h.names g)

/-! ## The longest suffix -/

theorem isFilterSuffix_suffixOf (hnames : Alphanumeric groups) (hne : groups ≠ []) :
    isFilterSuffix (suffixOf groups) = true := by
  obtain ⟨g, gs, rfl⟩ := List.exists_cons_of_ne_nil hne
  have hsuffix := suffixOf_cons g gs
  have hfeed : ((Text.joinWith ['|'] (g :: gs)).getLast? == some '\n') = false := by
    rw [beq_eq_false_iff_ne]
    intro hlast
    refine hnames.not_mem_suffixOf (c := '\n') (by decide) (by decide) ?_
    rw [hsuffix]
    exact List.mem_cons_of_mem _ (List.mem_of_getLast? hlast)
  rw [hsuffix, isFilterSuffix]
  simp only [hfeed, Bool.false_eq_true, if_false, List.all_eq_true, Bool.or_eq_true, beq_iff_eq]
  exact fun c hc => hnames.mem_suffixOf (hsuffix ▸ List.mem_cons_of_mem _ hc)

theorem filterSuffixStart_le_length (t : Text) : filterSuffixStart t ≤ t.length := by
  induction t with
  | nil => exact Nat.le_refl 0
  | cons c rest ih =>
    rw [filterSuffixStart]
    split
    · exact Nat.zero_le _
    · exact Nat.succ_le_succ ih

/-- The search from the left finds the first place where a suffix begins. -/
theorem filterSuffixStart_le (h : isFilterSuffix (t.drop i) = true) : filterSuffixStart t ≤ i := by
  induction t generalizing i with
  | nil => exact Nat.zero_le i
  | cons c rest ih =>
    rw [filterSuffixStart]
    split
    next => exact Nat.zero_le i
    next hnone =>
      cases i with
      | zero => exact absurd h hnone
      | succ i => exact Nat.succ_le_succ (ih h)

theorem FilterSplit.isSuffix (h : FilterSplit t body groups) : suffixOf groups <:+ (splitFilterSuffix t).2 := by
  have hlength : (maskEscapes body).length = body.length := length_maskEscapes body
  have hle : filterSuffixStart (maskEscapes t) ≤ body.length := by
    by_cases hne : groups = []
    · have hend := filterSuffixStart_le_length (maskEscapes t)
      rw [length_maskEscapes, h.append, hne] at hend
      simpa [hne, h.append, suffixOf] using hend
    · refine filterSuffixStart_le ?_
      rw [h.maskEscapes_eq, List.drop_left' hlength]
      exact isFilterSuffix_suffixOf h.names hne
  have hdrop : t.drop body.length = suffixOf groups := by rw [h.append, List.drop_left]
  rw [splitFilterSuffix, List.splitAt_eq, ← hdrop]
  exact List.drop_suffix_drop_left t hle

/-- **The groups that are split off are the longest.** A masked text has the length of the text; what
is in no pair is left as it is, and a backslash is left only where it is the last character. A line
is parted into a body and the filter groups it ends in; any groups it ends in are among them, and the
body has none at its end. -/
theorem splitFilterSuffix_longest (t : Text) :
    ((maskEscapes t).length = t.length ∧
      (∀ i, ¬ InPair t i → (maskEscapes t)[i]? = t[i]?) ∧
      ∀ i, (maskEscapes t)[i]? = some '\\' → i + 1 = t.length) ∧
    ('\n' ∉ t → ∃ body groups, splitFilterSuffix t = (body, suffixOf groups) ∧
      EndsInGroups t body groups ∧
      (∀ body' groups', EndsInGroups t body' groups' → suffixOf groups' <:+ suffixOf groups) ∧
      splitFilterSuffix body = (body, [])) := by
  refine ⟨⟨length_maskEscapes t, fun _ => getElem?_maskEscapes, fun _ => eq_length_of_getElem?_maskEscapes⟩,
    fun hline => ?_⟩
  obtain ⟨body, groups, hsplit, h⟩ := exists_filterSplit hline
  have hlongest : ∀ body' groups', FilterSplit t body' groups' → suffixOf groups' <:+ suffixOf groups := by
    intro body' groups' h'
    have hsuffix := h'.isSuffix
    rwa [hsplit] at hsuffix
  refine ⟨body, groups, hsplit, endsInGroups_iff.2 h, fun _ _ h' => hlongest _ _ (endsInGroups_iff.1 h'), ?_⟩
  have hbody : '\n' ∉ body := fun hmem => hline (h.append ▸ List.mem_append_left _ hmem)
  obtain ⟨body', groups', hsplit', h'⟩ := exists_filterSplit hbody
  -- What the body ends in would make the groups of the line longer.
  have hle := (hlongest body' (groups' ++ groups) (h.trans h')).length_le
  have hnil : suffixOf groups' = [] := by
    rw [suffixOf, List.flatMap_append, ← suffixOf, ← suffixOf, List.length_append] at hle
    exact List.eq_nil_of_length_eq_zero (by omega)
  rw [hsplit', hnil, h'.append, hnil, List.append_nil]

/-- An escaped bar, then a bar behind a pair of backslashes, which begins the groups; one of them is empty. -/
theorem splitFilterSuffix_longest_pairs :
    let t := "p\\|q\\\\|bem||c2".toList
    '\n' ∉ t ∧ ∃ body groups, splitFilterSuffix t = (body, suffixOf groups) ∧
      body = "p\\|q\\\\".toList ∧ EndsInGroups t body groups ∧
      (∀ body' groups', EndsInGroups t body' groups' → suffixOf groups' <:+ suffixOf groups) ∧
      splitFilterSuffix body = (body, []) := by
  intro t
  have hline : '\n' ∉ t := by decide
  obtain ⟨body, groups, hsplit, hgroups, hlongest, hagain⟩ := (splitFilterSuffix_longest t).2 hline
  have heq : splitFilterSuffix t = ("p\\|q\\\\".toList, "|bem||c2".toList) := by decide +kernel
  exact ⟨hline, body, groups, hsplit, congrArg Prod.fst (hsplit.symm.trans heq), hgroups, hlongest, hagain⟩

end Shorthand.Abbreviation
