/-
What a backward scan cuts from a line. The scan runs over the masked text before the filters, and
what it finds is cut from the line itself and split from its start. `span_read` says that the two
agree: no pair is parted, and the filters that were left out of the scan are those that are read.
-/
import Shorthand.Abbreviation.Extract
import Shorthand.Proofs.Abbreviation.FilterSuffix

namespace Shorthand.Abbreviation

/-! ## Underscores -/

/-- A scan that takes underscores for part of an abbreviation: it never stops between two of them. -/
def Scanner.PassesUnderscores (scan : Scanner) : Prop :=
  ∀ family t start, scan family t = some start → 0 < start → t[start - 1]? = some '_' → t[start]? ≠ some '_'

namespace Scan

/-- The scan stops at a character, which is no underscore, or goes on before it. -/
theorem back_cons (family : Dialect.Family) (stack : List Char) (c : Char) (before : Text) :
    (back family stack (c :: before)).2 = 0 ∧ c ≠ '_' ∨
      ∃ stack', (back family stack (c :: before)).2 = (back family stack' before).2 + 1 := by
  simp only [back]
  split
  next => exact .inr ⟨_, rfl⟩
  split
  next => exact .inr ⟨_, rfl⟩
  split
  next => exact .inr ⟨_, rfl⟩
  split
  next hopening =>
    have hc : c ≠ '_' := by
      rintro rfl
      cases family <;> exact absurd hopening (by decide)
    split
    next => exact .inl ⟨rfl, hc⟩
    next =>
      split
      next => exact .inr ⟨_, rfl⟩
      next => exact .inl ⟨rfl, hc⟩
  split
  next => exact .inr ⟨_, rfl⟩
  split
  next hstop =>
    refine .inl ⟨rfl, ?_⟩
    rintro rfl
    cases hstop
  next => exact .inr ⟨_, rfl⟩

theorem back_le_length (family : Dialect.Family) (stack : List Char) (t : Text) :
    (back family stack t).2 ≤ t.length := by
  induction t generalizing stack with
  | nil => exact Nat.le_refl 0
  | cons c before ih =>
    rcases back_cons family stack c before with ⟨h, -⟩ | ⟨stack', h⟩
    · rw [h]
      exact Nat.zero_le _
    · rw [h]
      exact Nat.succ_le_succ (ih stack')

theorem getElem?_back (family : Dialect.Family) (stack : List Char) (t : Text) :
    t[(back family stack t).2]? ≠ some '_' := by
  induction t generalizing stack with
  | nil => exact nofun
  | cons c before ih =>
    rcases back_cons family stack c before with ⟨h, hc⟩ | ⟨stack', h⟩
    · rw [h, List.getElem?_cons_zero]
      exact fun h => hc (Option.some.inj h)
    · rw [h, List.getElem?_cons_succ]
      exact ih stack'

/-- No underscore is before the place where an abbreviation begins: the scan stopped at what is
there, or it is an operator that was taken off the beginning. -/
theorem start?_passesUnderscores : Scanner.PassesUnderscores start? := by
  intro family t start h hpos hunder
  rw [start?] at h
  split at h
  next n hback =>
    have hle := back_le_length family [] t.reverse
    have hstop := getElem?_back family [] t.reverse
    rw [hback] at hle hstop
    rw [List.length_reverse] at hle
    generalize hscanned : t.drop (t.length - (n + 1)) = scanned at h
    obtain rfl := Option.some.inj h
    -- What was scanned is leading operators, which may be none, and then the abbreviation.
    have hsplit := List.takeWhile_append_dropWhile (p := isLeadingOperator) (l := scanned)
    have hlength : scanned.length = n + 1 := by
      rw [← hscanned, List.length_drop]
      omega
    have hindex (i : Nat) : scanned[i]? = t[t.length - (n + 1) + i]? := by rw [← hscanned, List.getElem?_drop]
    rw [← hsplit, List.length_append] at hlength
    rcases Nat.eq_zero_or_pos (scanned.takeWhile isLeadingOperator).length with hnone | hsome
    · refine absurd ?_ hstop
      rw [List.getElem?_reverse (by omega), ← hunder]
      exact congrArg (t[·]?) (by omega)
    · have hlast : (scanned.takeWhile isLeadingOperator)[(scanned.takeWhile isLeadingOperator).length - 1]? =
          some '_' := by
        rw [← hunder, ← List.getElem?_append_left (by omega), hsplit, hindex]
        exact congrArg (t[·]?) (by omega)
      exact absurd (List.mem_takeWhile_imp (List.mem_of_getElem? hlast)) (by decide)
  next => cases h

end Scan

/-! ## The span -/

/-- The characters of a line from an index on and before another. -/
def slice (line : Text) (start stop : Nat) : Text := (line.take stop).drop start

namespace FilterSplit

variable {line body : Text} {groups : List Text} {start stop : Nat}

theorem slice_body (h : FilterSplit (line.take stop) body groups) (start : Nat) :
    slice line start body.length = body.drop start := by
  have hlength : body.length ≤ stop := by
    have htake := congrArg List.length h.append
    rw [List.length_take, List.length_append] at htake
    omega
  rw [slice, ← Nat.min_eq_left hlength, ← List.take_take, h.append, List.take_left]

theorem slice_eq (h : FilterSplit (line.take stop) body groups) (hstart : start ≤ body.length) :
    slice line start stop = body.drop start ++ suffixOf groups := by
  rw [slice, h.append, List.drop_append_of_le_length hstart]

end FilterSplit

/-- **What the scan finds is read as it was scanned.** No pair is parted where the span begins, so that
the span is masked as it was on the line. When what is before the filters holds no unescaped bar, and
not only blanks, it is the abbreviation once its escaped bars are resolved and it is trimmed, and the
filters are the groups that were split off, without the empty ones. -/
theorem span_read {scan : Scanner} {family : Dialect.Family} {line body suffix : Text} {stop start : Nat}
    (hscan : scan.PassesUnderscores) (hline : '\n' ∉ line) (hstart : start? scan family line (stop : Nat) = some start)
    (hsplit : splitFilterSuffix (line.take stop) = (body, suffix)) :
    signs (line.take stop) = signs (line.take (min start stop)) ++ signs (slice line start stop) ∧
    maskEscapes (slice line start stop) = (maskEscapes (line.take stop)).drop start ∧
    (.bare '|' ∉ signs (slice line start body.length) → Text.trim (slice line start body.length) ≠ [] →
      ∃ groups, suffix = groups.flatMap ('|' :: ·) ∧ Alphanumeric groups ∧
        Filtered.ofText? (slice line start stop) =
          some ⟨Text.trim (resolve (slice line start body.length)), groups.filter (!·.isEmpty)⟩) := by
  obtain ⟨body', groups, hsplit', hgroups⟩ :=
    exists_filterSplit (t := line.take stop) fun hmem => hline (List.mem_of_mem_take hmem)
  obtain ⟨rfl, rfl⟩ := Prod.mk.inj (hsplit.symm.trans hsplit')
  have hpasses : 0 < start → (maskEscapes body)[start - 1]? = some '_' → (maskEscapes body)[start]? ≠ some '_' := by
    refine hscan family _ start ?_
    simp only [start?, Text.upTo, hsplit] at hstart
    exact hstart
  -- The scan saw the body only, but the underscores of the whole are all in it.
  have hsigns := signs_take_drop (t := line.take stop) fun hpos hleft hright =>
    hpasses hpos (hgroups.getElem?_body hleft) (hgroups.getElem?_body hright)
  refine ⟨by rwa [List.take_take] at hsigns, maskEscapes_drop hsigns, fun hbar htrim => ⟨groups, rfl, hgroups.names, ?_⟩⟩
  rw [hgroups.slice_body] at hbar htrim ⊢
  have hle : start ≤ body.length := by
    by_contra hlt
    rw [List.drop_of_length_le (by omega)] at htrim
    exact htrim rfl
  have hend : groups ≠ [] → .bare '\\' ∉ signs (body.drop start) := by
    intro hne hmem
    refine hgroups.not_mem_signs hne ?_
    rw [signs_take_drop hpasses]
    exact List.mem_append_right _ hmem
  rw [hgroups.slice_eq hle]
  exact Filtered.ofText?_append hgroups.names hbar hend (mt Text.trim_eq_nil_iff.2 htrim)

/-- Escaped bars, pairs of backslashes and pairs beside underscores, with groups behind them of which
two are empty. -/
theorem span_read_underscores :
    let line := "go __x\\|a__\\\\\x7bb \\|\\\\c\\\x7d\x7d\\||bem||c2|; rest".toList
    let body := "go __x\\|a__\\\\\x7bb \\|\\\\c\\\x7d\x7d\\|".toList
    Scanner.PassesUnderscores Scan.start? ∧ '\n' ∉ line ∧ start? Scan.start? .markup line (35 : Nat) = some 3 ∧
    splitFilterSuffix (line.take 35) = (body, "|bem||c2|".toList) ∧
    signs (line.take 35) = signs "go ".toList ++ signs (slice line 3 35) ∧
    maskEscapes (slice line 3 35) = (maskEscapes (line.take 35)).drop 3 ∧
    .bare '|' ∉ signs (slice line 3 body.length) ∧ Text.trim (slice line 3 body.length) ≠ [] ∧
    ∃ groups, "|bem||c2|".toList = groups.flatMap ('|' :: ·) ∧ Alphanumeric groups ∧
      Filtered.ofText? (slice line 3 35) =
        some ⟨"__x|a__\\\\\x7bb |\\\\c\\\x7d\x7d|".toList, groups.filter (!·.isEmpty)⟩ := by
  intro line body
  have hline : '\n' ∉ line := by decide
  have hstart : start? Scan.start? .markup line (35 : Nat) = some 3 := by decide +kernel
  have hsplit : splitFilterSuffix (line.take 35) = (body, "|bem||c2|".toList) := by decide +kernel
  have hbar : .bare '|' ∉ signs (slice line 3 body.length) := by decide +kernel
  have htrim : Text.trim (slice line 3 body.length) ≠ [] := by decide +kernel
  have habbreviation : Text.trim (resolve (slice line 3 body.length)) =
      "__x|a__\\\\\x7bb |\\\\c\\\x7d\x7d|".toList := by decide +kernel
  obtain ⟨hsigns, hmask, hread⟩ := span_read Scan.start?_passesUnderscores hline hstart hsplit
  rw [habbreviation] at hread
  exact ⟨Scan.start?_passesUnderscores, hline, hstart, hsplit, hsigns, hmask, hbar, htrim, hread hbar htrim⟩

end Shorthand.Abbreviation
