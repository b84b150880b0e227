/-
The order in which a client shows the items of a completion. It sorts them by texts that begin with
four digits of the rank, and `sortedByRank_iff` says that this is the order of the ranks just when no
rank has more digits: with ten thousand suggestions the last one, `10000…`, comes before `1001…`.
-/
import Shorthand.Proofs.Completion.OwnSnippet
import Shorthand.Proofs.Text.Numeral
import Shorthand.Server.Item

namespace Shorthand.Server

open Abbreviation Completion Expansion

variable {settings : Settings} {expander : Expander} {t : Target} {a b o : Candidate} {answer : List Candidate}

/-! ## Sort texts -/

/-- Of two candidates the one of the smaller rank has the smaller sort text. -/
def SortedByRank (settings : Settings) (answer : List Candidate) : Prop :=
  ∀ a ∈ answer, ∀ b ∈ answer, a.rank < b.rank →
    (Item.ofCandidate settings a).sortText < (Item.ofCandidate settings b).sortText

/-- However the candidates are shown in the order of their sort texts, they are in that of their ranks. -/
def ShownByRank (settings : Settings) (answer : List Candidate) : Prop :=
  ∀ shown : List Candidate, shown.Perm answer →
    shown.Pairwise (fun a b => ¬ (Item.ofCandidate settings b).sortText < (Item.ofCandidate settings a).sortText) →
    shown.Pairwise fun a b => a.rank ≤ b.rank

theorem sortText_lt (h : a.rank < b.rank) (hb : b.rank < 10000) : sortText a < sortText b :=
  Text.padded_append_lt (by decide) h hb _ _

/-- The first rank with five digits comes before the last one with four. -/
theorem sortText_lt_of_five_digits (ha : a.rank = 9999) (hb : b.rank = 10000) : sortText b < sortText a := by
  have hfour : Text.padded 4 9999 = "9999".toList := by decide
  have hfive : Text.padded 4 10000 = "10000".toList := by decide
  rw [sortText, sortText, ha, hb, hfour, hfive]
  exact List.cons_lt_cons_iff.2 (.inl (by decide))

/-! ## Ranks of one answer -/

theorem ranks_suggestions (expander : Expander) (t : Target) (labels : List Text) :
    (suggestions expander t 1 labels).map (·.rank) =
      List.range' 1 (labels.filter (expands expander t.config)).length := by
  obtain ⟨hlabels, hranks, -⟩ := listed_suggestions expander t 1 labels
  rw [hranks, ← hlabels, List.length_map]

/-- The ranks of an answer have no gaps, and the highest one is the number of suggestions. -/
theorem exists_rank_iff {r : Nat} (hpos : 0 < r) :
    (∃ o ∈ candidates expander settings t, o.rank = r) ↔
      r ≤ ((suggestionLabels settings t).filter (expands expander t.config)).length := by
  have hranks := ranks_suggestions expander t (suggestionLabels settings t)
  constructor
  · rintro ⟨o, ho, rfl⟩
    have hlisted : o ∈ suggestions expander t 1 (suggestionLabels settings t) := by
      refine (List.mem_append.1 ho).resolve_left fun hown => ?_
      rw [rank_ownCandidate (Option.mem_toList.1 hown)] at hpos
      exact Nat.lt_irrefl 0 hpos
    have hrank := List.mem_map_of_mem (f := Candidate.rank) hlisted
    rw [hranks, List.mem_range'_1] at hrank
    omega
  · intro hle
    have hr : r ∈ (suggestions expander t 1 (suggestionLabels settings t)).map (·.rank) := by
      rw [hranks, List.mem_range'_1]
      omega
    obtain ⟨o, ho, rfl⟩ := List.mem_map.1 hr
    exact ⟨o, List.mem_append_right _ ho, rfl⟩

theorem forall_rank_lt_iff :
    (∀ o ∈ candidates expander settings t, o.rank < 10000) ↔
      ((suggestionLabels settings t).filter (expands expander t.config)).length < 10000 := by
  constructor
  · intro h
    by_contra hmany
    obtain ⟨o, ho, hrank⟩ := (exists_rank_iff (by decide)).2 (Nat.le_of_not_lt hmany)
    exact Nat.lt_irrefl _ (hrank ▸ h o ho)
  · intro h o ho
    rcases Nat.eq_zero_or_pos o.rank with hzero | hpos
    · rw [hzero]
      decide
    · exact Nat.lt_of_le_of_lt ((exists_rank_iff hpos).1 ⟨o, ho, rfl⟩) h

/-- Where a rank has five digits there is a candidate on each side of the break. -/
theorem exists_break (h : ¬ ∀ o ∈ candidates expander settings t, o.rank < 10000) :
    ∃ a ∈ candidates expander settings t, ∃ b ∈ candidates expander settings t, a.rank = 9999 ∧ b.rank = 10000 := by
  have hmany := Nat.le_of_not_lt (mt forall_rank_lt_iff.2 h)
  obtain ⟨a, ha, ha'⟩ := (exists_rank_iff (r := 9999) (by decide)).2 (Nat.le_of_lt hmany)
  obtain ⟨b, hb, hb'⟩ := (exists_rank_iff (by decide)).2 hmany
  exact ⟨a, ha, b, hb, ha', hb'⟩

theorem sortedByRank_of_forall (h : ∀ o ∈ answer, o.rank < 10000) : SortedByRank settings answer :=
  fun _ _ b hb hlt => sortText_lt hlt (h b hb)

theorem SortedByRank.shownByRank (h : SortedByRank settings answer) : ShownByRank settings answer := by
  intro shown hperm hshown
  refine hshown.imp_of_mem fun {a b} ha hb hab => ?_
  by_contra hlt
  exact hab (h b (hperm.mem_iff.1 hb) a (hperm.mem_iff.1 ha) (Nat.lt_of_not_le hlt))

/-- A client may show the first of two candidates before the second. -/
def mayPrecede (a b : Candidate) : Bool := decide (¬ sortText b < sortText a)

theorem mayPrecede_trans (a b c : Candidate) (hab : mayPrecede a b = true) (hbc : mayPrecede b c = true) :
    mayPrecede a c = true :=
  decide_eq_true (List.not_lt.2 (List.le_trans (List.not_lt.1 (of_decide_eq_true hab))
    (List.not_lt.1 (of_decide_eq_true hbc))))

theorem mayPrecede_total (a b : Candidate) : (mayPrecede a b || mayPrecede b a) = true := by
  rw [Bool.or_eq_true, mayPrecede, mayPrecede, decide_eq_true_iff, decide_eq_true_iff]
  by_contra hboth
  obtain ⟨hba, hab⟩ := not_or.1 hboth
  exact List.lt_asymm (not_not.1 hba) (not_not.1 hab)

/-- A client can always sort. -/
theorem exists_shown (settings : Settings) (answer : List Candidate) :
    ∃ shown : List Candidate, shown.Perm answer ∧ shown.Pairwise fun a b =>
      ¬ (Item.ofCandidate settings b).sortText < (Item.ofCandidate settings a).sortText :=
  ⟨answer.mergeSort mayPrecede, List.mergeSort_perm answer mayPrecede,
    (List.pairwise_mergeSort mayPrecede_trans mayPrecede_total answer).imp of_decide_eq_true⟩

theorem not_shownByRank (ha : a ∈ answer) (hb : b ∈ answer) (hrank : a.rank < b.rank)
    (hsort : sortText b < sortText a) : ¬ ShownByRank settings answer := by
  intro h
  obtain ⟨shown, hperm, hshown⟩ := exists_shown settings answer
  have ha := hperm.mem_iff.2 ha
  have hb := hperm.mem_iff.2 hb
  have hranks := h shown hperm hshown
  clear h hperm
  -- Whichever of the two is shown first, it is out of one of the two orders.
  induction shown with
  | nil => cases ha
  | cons c shown ih =>
    obtain ⟨hfirst, hshown⟩ := List.pairwise_cons.1 hshown
    obtain ⟨hfirst', hranks⟩ := List.pairwise_cons.1 hranks
    rcases List.mem_cons.1 ha with ha | ha <;> rcases List.mem_cons.1 hb with hb | hb
    · rw [ha, hb] at hrank
      exact Nat.lt_irrefl _ hrank
    · exact hfirst b hb (ha ▸ hsort)
    · exact Nat.not_le.2 hrank (hb ▸ hfirst' a ha)
    · exact ih hshown ha hb hranks

/-- Both orders of the candidates for a target hang on the number of digits alone. -/
theorem candidates_sortedByRank_iff :
    (SortedByRank settings (candidates expander settings t) ↔
      ∀ o ∈ candidates expander settings t, o.rank < 10000) ∧
    (ShownByRank settings (candidates expander settings t) ↔
      ∀ o ∈ candidates expander settings t, o.rank < 10000) := by
  refine ⟨⟨fun h => ?_, sortedByRank_of_forall⟩, ⟨fun h => ?_, fun h => (sortedByRank_of_forall h).shownByRank⟩⟩
  · by_contra hfive
    obtain ⟨a, ha, b, hb, harank, hbrank⟩ := exists_break hfive
    exact List.lt_asymm (h a ha b hb (by omega)) (sortText_lt_of_five_digits harank hbrank)
  · by_contra hfive
    obtain ⟨a, ha, b, hb, harank, hbrank⟩ := exists_break hfive
    exact not_shownByRank ha hb (by omega) (sortText_lt_of_five_digits harank hbrank) h

/-! ## A stylesheet with many snippets -/

/-- Keys that go on from an `m`, as many as are asked for. -/
def numberedKeys (n : Nat) : List Text := (List.range n).map fun i => 'm' :: Text.ofNat i

def numberedSnippets (n : Nat) : Extensions.Snippets := .ofList ((numberedKeys n).map fun key => (key, []))

/-- A stylesheet in which an `m` is typed. -/
def typedM : Document := ⟨"file:///a.css".toList, some "css".toList, ['m']⟩

theorem nodup_numberedKeys (n : Nat) : (numberedKeys n).Nodup :=
  List.nodup_range.map fun _ _ h => Text.ofNat_injective (List.cons.inj h).2

theorem keys_numberedSnippets (n : Nat) : (numberedSnippets n).keys = numberedKeys n := by
  have hdistinct : ((numberedKeys n).map fun key => (key, ([] : Text))).Pairwise fun a b => (a.1 == b.1) = false :=
    List.pairwise_map.2 ((nodup_numberedKeys n).imp beq_false_of_ne)
  have hentries : (numberedSnippets n).entries = (numberedKeys n).map fun key => (key, []) :=
    Data.Dict.entries_insertAll (d := .empty) hdistinct
  rw [Data.Dict.keys, hentries, List.map_map]
  exact List.map_id _

theorem extract_typedM :
    extract Scan.start? typedM ⟨0, 1⟩ "css".toList = .ok (some ⟨['m'], [], ⟨⟨0, 0⟩, ⟨0, 1⟩⟩⟩) := by
  decide

/-- Every key is suggested, and there are no others. -/
theorem length_suggestionLabels_numbered {config : Config} {extracted : Extracted} {n : Nat}
    (hfamily : config.family = .stylesheet) (hsnippets : config.snippets = some (numberedSnippets n))
    (hextracted : extracted.abbreviation = ['m']) :
    ((suggestionLabels .default ⟨extracted, config⟩).filter (expands echo config)).length = n := by
  have htyped : typedPart .default extracted.abbreviation = ['m'] := by
    rw [hextracted]
    decide
  have hkeys : (suggestionKeys config).Perm (numberedKeys n) := by
    refine (List.perm_ext_iff_of_nodup (suggestionKeys_nodup config) (nodup_numberedKeys n)).2 fun key => ?_
    rw [mem_suggestionKeys, Offered, hfamily, hsnippets, ← keys_numberedSnippets]
    simp
  have hgoesOn : ∀ key ∈ suggestionKeys config, goesOn ['m'] key = true := by
    intro key hkey
    obtain ⟨i, -, rfl⟩ := List.mem_map.1 (hkeys.mem_iff.1 hkey)
    exact goesOn_iff.2 ⟨⟨_, rfl⟩, fun h => Text.ofNat_ne_nil i (List.cons.inj h).2.symm⟩
  have hlabels : suggestionLabels .default ⟨extracted, config⟩ = (suggestionKeys config).map ([] ++ ·) := by
    rw [@suggestionLabels_eq .default ⟨extracted, config⟩ [] rfl rfl, htyped, List.filter_eq_self.2 hgoesOn]
  have hexpands : ∀ label ∈ (suggestionKeys config).map ([] ++ ·), expands echo config label = true := by
    intro label hlabel
    obtain ⟨key, hkey, rfl⟩ := List.mem_map.1 hlabel
    obtain ⟨i, -, rfl⟩ := List.mem_map.1 (hkeys.mem_iff.1 hkey)
    rfl
  rw [hlabels, List.filter_eq_self.2 hexpands, List.length_map, hkeys.length_eq, numberedKeys, List.length_map,
    List.length_range]

theorem exists_complete_numbered (n : Nat) :
    ∃ t, complete Scan.start? echo typedM ⟨0, 1⟩ "css".toList .default (stylesheetSnapshot (numberedSnippets n)) =
        .ok (candidates echo .default t) ∧
      ((∀ o ∈ candidates echo .default t, o.rank < 10000) ↔ n < 10000) := by
  obtain ⟨config, hconfig⟩ := exists_assemble_stylesheetSnapshot (numberedSnippets n)
  have hon : Settings.default.expansionEnabled = true := rfl
  have hcomplete := complete_of_extract echo (stylesheetSnapshot (numberedSnippets n)) hon extract_typedM (by decide)
  rw [hconfig] at hcomplete
  refine ⟨_, hcomplete, ?_⟩
  rw [forall_rank_lt_iff, length_suggestionLabels_numbered (family_of_assemble hconfig) _ rfl]
  exact (snippets_of_assemble hconfig (by decide)).trans (resolveSnippets_stylesheetSnapshot _)

/-! ## Answers -/

/-- **Sort texts follow the ranks** of an answer just when it has no rank with more than four digits,
that is, fewer than ten thousand suggestions; and then, and only then, are its candidates in the
order of their ranks however a client sorts them. -/
theorem sortedByRank_iff {scan : Scanner} {document : Document} {position : Position} {dialect : Text}
    {snapshot : Extensions.Snapshot}
    (hanswer : complete scan expander document position dialect settings snapshot = .ok answer) :
    (SortedByRank settings answer ↔ ∀ o ∈ answer, o.rank < 10000) ∧
    (ShownByRank settings answer ↔ ∀ o ∈ answer, o.rank < 10000) := by
  by_cases hnone : answer = []
  · subst hnone
    have hsorted : SortedByRank settings [] := sortedByRank_of_forall nofun
    exact ⟨iff_of_true hsorted nofun, iff_of_true hsorted.shownByRank nofun⟩
  · obtain ⟨o, ho⟩ := List.exists_mem_of_ne_nil answer hnone
    obtain ⟨t, -, rfl⟩ := exists_target_of_mem hanswer ho
    exact candidates_sortedByRank_iff

/-- An answer with as many suggestions as there may be. -/
theorem sortedByRank_iff_most :
    ∃ answer, complete Scan.start? echo typedM ⟨0, 1⟩ "css".toList .default
        (stylesheetSnapshot (numberedSnippets 9999)) = .ok answer ∧
      SortedByRank .default answer ∧ ShownByRank .default answer := by
  obtain ⟨t, hanswer, hranks⟩ := exists_complete_numbered 9999
  have hfew := hranks.2 (by decide)
  exact ⟨_, hanswer, (sortedByRank_iff hanswer).1.2 hfew, (sortedByRank_iff hanswer).2.2 hfew⟩

/-- One suggestion more, and neither order is that of the ranks. -/
theorem not_sortedByRank :
    ∃ answer, complete Scan.start? echo typedM ⟨0, 1⟩ "css".toList .default
        (stylesheetSnapshot (numberedSnippets 10000)) = .ok answer ∧
      ¬ SortedByRank .default answer ∧ ¬ ShownByRank .default answer := by
  obtain ⟨t, hanswer, hranks⟩ := exists_complete_numbered 10000
  have hmany := mt hranks.1 (by decide)
  exact ⟨_, hanswer, mt candidates_sortedByRank_iff.1.1 hmany, mt candidates_sortedByRank_iff.2.1 hmany⟩

end Shorthand.Server
