/-
What a completion is asked for: the abbreviation before the cursor with its configuration
(`target_eq_some_iff`, `completionTarget_eq_some_iff`), and the candidate of that
abbreviation itself, which alone has the rank 0 (`mem_candidates_rank_zero`).
-/
import Shorthand.Proofs.Completion.Suggestions

namespace Shorthand.Completion

open Abbreviation Expansion

/-- An expander that gives back what it is given. -/
def echo : Expander := fun label _ => some label

theorem target_eq_some_iff {scan : Scanner} {document : Document} {position : Position} {dialect : Text}
    {settings : Settings} {snapshot : Extensions.Snapshot} {t : Target} :
    target scan document position dialect settings snapshot = .ok (some t) ↔
      extract scan document position dialect = .ok (some t.extracted) ∧
      Config.assemble dialect (request settings t.extracted.filters) snapshot = .ok t.config := by
  obtain ⟨found, config⟩ := t
  simp only [target]
  cases extract scan document position dialect with
  | error why => simp
  | ok found? =>
    cases found? with
    | none => simp
    | some found' =>
      simp only [Except.ok.injEq, Option.some.injEq]
      constructor
      · intro h
        cases hc : Config.assemble dialect (request settings found'.filters) snapshot with
        | error why =>
          rw [hc] at h
          cases h
        | ok config' =>
          rw [hc] at h
          cases h
          exact ⟨rfl, hc⟩
      · rintro ⟨rfl, hc⟩
        rw [hc]

theorem dialect_of_assemble {dialect : Text} {request : Request} {snapshot : Extensions.Snapshot}
    {config : Config} (h : Config.assemble dialect request snapshot = .ok config) :
    config.dialect = dialect := by
  simp only [Config.assemble, bind, Except.bind] at h
  split at h
  · cases h
  split at h
  · cases h
  · cases h
    rfl

/-- The name of a tag is being opened before the cursor, as in `<div`. -/
def OpensTag (document : Document) (position : Position) (t : Target) : Prop :=
  t.config.family = .markup ∧ '<' :: t.extracted.abbreviation <:+ lineBefore document position

theorem opensTag_eq_true_iff {document : Document} {position : Position} {t : Target} :
    (decide (t.config.family = .markup) &&
      opensTag (lineBefore document position) t.extracted.abbreviation) = true ↔
        OpensTag document position t := by
  rw [Bool.and_eq_true, decide_eq_true_iff, opensTag, List.isSuffixOf_iff_suffix, OpensTag]

/-- A completion has no target of its own: it is that of an expansion or none. -/
theorem completionTarget_eq_some_iff {scan : Scanner} {document : Document} {position : Position}
    {dialect : Text} {settings : Settings} {snapshot : Extensions.Snapshot} {t : Target} :
    completionTarget scan document position dialect settings snapshot = .ok (some t) ↔
      settings.expansionEnabled = true ∧ ¬ OpensTag document position t ∧
      target scan document position dialect settings snapshot = .ok (some t) := by
  rw [completionTarget]
  cases settings.expansionEnabled with
  | false => simp
  | true =>
    simp only [Bool.not_true, Bool.false_eq_true, if_false, true_and]
    cases target scan document position dialect settings snapshot with
    | error why => simp
    | ok found =>
      cases found with
      | none => simp
      | some t' =>
        by_cases hopen : OpensTag document position t'
        · simp only [if_pos (opensTag_eq_true_iff.2 hopen)]
          constructor
          · intro h
            cases h
          · rintro ⟨hno, h⟩
            cases h
            exact absurd hopen hno
        · simp only [if_neg (mt opensTag_eq_true_iff.1 hopen)]
          constructor
          · intro h
            cases h
            exact ⟨hopen, rfl⟩
          · exact fun h => h.2

theorem completionTarget_eq_none {scan : Scanner} {document : Document} {position : Position}
    {dialect : Text} {settings : Settings} {snapshot : Extensions.Snapshot} {t : Target}
    (ht : target scan document position dialect settings snapshot = .ok (some t))
    (h : settings.expansionEnabled = false ∨ OpensTag document position t) :
    completionTarget scan document position dialect settings snapshot = .ok none := by
  rw [completionTarget, ht]
  cases hon : settings.expansionEnabled with
  | false => rfl
  | true =>
    rw [hon] at h
    have hopen : OpensTag document position t := h.resolve_left Bool.noConfusion
    simp only [Bool.not_true, Bool.false_eq_true, if_false, if_pos (opensTag_eq_true_iff.2 hopen)]

/-- What is known is no noise, whatever it expands to. -/
theorem isNoise_of_isKnownKey {c : Config} {abbreviation expanded : Text} (hfamily : c.family = .markup)
    (h : isKnownKey c abbreviation = true) : isNoise c abbreviation expanded = false := by
  rw [isNoise, hfamily]
  simp only [isMarkupNoise, h, Bool.true_or, if_true]

/-- The candidate that is made from an expansion of the typed abbreviation. -/
def typedCandidate (t : Target) (expanded : Text) : Candidate :=
  match t.config.family with
  | .stylesheet => candidate t (TabStop.remove expanded) expanded 0 (some t.extracted.abbreviation)
  | .markup => candidate t (typedLabel t.extracted) expanded 0 none

theorem rank_typedCandidate (t : Target) (expanded : Text) : (typedCandidate t expanded).rank = 0 := by
  rw [typedCandidate]
  cases t.config.family <;> rfl

theorem label_typedCandidate {t : Target} (h : t.config.family = .markup) (expanded : Text) :
    (typedCandidate t expanded).label = typedLabel t.extracted := by
  rw [typedCandidate, h]
  rfl

theorem edit_typedCandidate (t : Target) (expanded : Text) :
    (typedCandidate t expanded).range = t.extracted.range ∧
      (typedCandidate t expanded).insertText = insertText t.config.family expanded := by
  cases hf : t.config.family <;> simp only [typedCandidate, candidate, hf, and_self]

theorem ownCandidate_of_expansion {expander : Expander} {t : Target} {expanded : Text}
    (hx : expansion? expander t.config t.extracted.abbreviation = some expanded) :
    ownCandidate expander t =
      if isNoise t.config t.extracted.abbreviation expanded then none else some (typedCandidate t expanded) := by
  rw [ownCandidate, hx, typedCandidate]
  cases t.config.family <;> rfl

/-- A markup expansion is no noise when it is not the tag of a word, and no sentence was typed. -/
theorem isNoise_of_ne_emptyTag {c : Config} {abbreviation expanded : Text} (hfamily : c.family = .markup)
    (hword : wordBeforePeriod? abbreviation = none)
    (htag : Text.lower expanded ≠ emptyTag (Text.lower abbreviation)) : isNoise c abbreviation expanded = false := by
  simp only [isNoise, hfamily, isMarkupNoise, hword, beq_false_of_ne htag, ite_self]

/-- The typed abbreviation is a candidate just when it expands to something that is no
noise. -/
theorem ownCandidate_eq_some_iff {expander : Expander} {t : Target} {o : Candidate} :
    ownCandidate expander t = some o ↔
      ∃ expanded, expansion? expander t.config t.extracted.abbreviation = some expanded ∧
        isNoise t.config t.extracted.abbreviation expanded = false ∧ o = typedCandidate t expanded := by
  cases hx : expansion? expander t.config t.extracted.abbreviation with
  | none => simp [ownCandidate, hx]
  | some expanded =>
    rw [ownCandidate_of_expansion hx]
    constructor
    · intro h
      split at h
      next => cases h
      next hnoise => exact ⟨expanded, rfl, Bool.eq_false_iff.2 hnoise, (Option.some.inj h).symm⟩
    · rintro ⟨_, ⟨⟩, hnoise, rfl⟩
      rw [hnoise]
      rfl

theorem edit_ownCandidate {expander : Expander} {t : Target} {o : Candidate}
    (h : ownCandidate expander t = some o) :
    ∃ expanded, expansion? expander t.config t.extracted.abbreviation = some expanded ∧
      isNoise t.config t.extracted.abbreviation expanded = false ∧
      o.range = t.extracted.range ∧ o.insertText = insertText t.config.family expanded := by
  obtain ⟨expanded, hx, hnoise, rfl⟩ := ownCandidate_eq_some_iff.1 h
  exact ⟨expanded, hx, hnoise, edit_typedCandidate t expanded⟩

theorem exists_ownCandidate {expander : Expander} {t : Target} {expanded : Text}
    (hx : expansion? expander t.config t.extracted.abbreviation = some expanded)
    (hnoise : isNoise t.config t.extracted.abbreviation expanded = false) :
    ∃ o, ownCandidate expander t = some o ∧
      o.range = t.extracted.range ∧ o.insertText = insertText t.config.family expanded :=
  ⟨_, ownCandidate_eq_some_iff.2 ⟨expanded, hx, hnoise, rfl⟩, edit_typedCandidate t expanded⟩

/-- What is expanded to something that is no noise comes first in the answer. -/
theorem exists_complete_cons {scan : Scanner} {expander : Expander} {document : Document} {position : Position}
    {dialect expanded : Text} {settings : Settings} {snapshot : Extensions.Snapshot} {t : Target}
    (hon : settings.expansionEnabled = true) (hopen : ¬ OpensTag document position t)
    (ht : target scan document position dialect settings snapshot = .ok (some t))
    (hx : expansion? expander t.config t.extracted.abbreviation = some expanded)
    (hnoise : isNoise t.config t.extracted.abbreviation expanded = false) :
    ∃ others, complete scan expander document position dialect settings snapshot =
      .ok (typedCandidate t expanded :: others) := by
  have hown := ownCandidate_eq_some_iff.2 ⟨expanded, hx, hnoise, rfl⟩
  simp only [complete, completionTarget_eq_some_iff.2 ⟨hon, hopen, ht⟩, candidates, hown]
  exact ⟨_, rfl⟩

/-- Where something is offered there is a target. -/
theorem exists_target_of_mem {scan : Scanner} {expander : Expander} {document : Document} {position : Position}
    {dialect : Text} {settings : Settings} {snapshot : Extensions.Snapshot} {o : Candidate} {answer : List Candidate}
    (hanswer : complete scan expander document position dialect settings snapshot = .ok answer) (ho : o ∈ answer) :
    ∃ t, target scan document position dialect settings snapshot = .ok (some t) ∧
      answer = candidates expander settings t := by
  rw [complete] at hanswer
  split at hanswer
  next => cases hanswer
  next =>
    cases hanswer
    cases ho
  next t ht =>
    cases hanswer
    exact ⟨t, (completionTarget_eq_some_iff.1 ht).2.2, rfl⟩

/-- No suggestion has the rank 0. -/
theorem mem_candidates_rank_zero {expander : Expander} {settings : Settings} {t : Target} {o : Candidate} :
    o ∈ candidates expander settings t ∧ o.rank = 0 ↔ ownCandidate expander t = some o := by
  rw [candidates, List.mem_append, Option.mem_toList]
  constructor
  · rintro ⟨hown | hlisted, hrank⟩
    · exact hown
    · have hranks := (listed_suggestions expander t 1 (suggestionLabels settings t)).ranks
      have hmem := List.mem_map_of_mem (f := Candidate.rank) hlisted
      rw [hranks, List.mem_range'_1] at hmem
      omega
  · intro hown
    exact ⟨.inl hown, rank_ownCandidate hown⟩

end Shorthand.Completion
