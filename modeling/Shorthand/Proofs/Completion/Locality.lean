/-
What a completion reads of a document. `complete_eq_of_same_before` says that it is the text
before the cursor on its line, as long as the cursor is within the line. Past its end the
test for a tag being opened reads the terminator too, and `complete_past_end_iff` says when
that makes a difference.
-/
import Shorthand.Proofs.Abbreviation.BeforeCursor
import Shorthand.Proofs.Completion.Target

namespace Shorthand.Completion

open Abbreviation Expansion
open Text (indexOfColumn columnOfIndex width IsTerminator)

variable {scan : Scanner} {expander : Expander} {document document' : Document} {position position' : Position}
  {dialect line : Text} {settings : Settings} {snapshot : Extensions.Snapshot} {t : Target}

/-! ## The cursor at another column -/

def Target.endingAt (t : Target) (position : Position) : Target :=
  { t with extracted := t.extracted.endingAt position }

/-- The same candidate with a range that ends elsewhere. -/
def Candidate.endingAt (o : Candidate) (position : Position) : Candidate :=
  { o with range := ⟨o.range.start, position⟩ }

theorem ownCandidate_endingAt (expander : Expander) (t : Target) (position : Position) :
    ownCandidate expander (t.endingAt position) = (ownCandidate expander t).map (·.endingAt position) := by
  simp only [ownCandidate, Target.endingAt, Extracted.endingAt]
  cases expansion? expander t.config t.extracted.abbreviation with
  | none => rfl
  | some expanded =>
    cases hnoise : isNoise t.config t.extracted.abbreviation expanded with
    | true => simp only [hnoise, if_true, Option.map_none]
    | false =>
      cases hf : t.config.family <;> simp only [hnoise, Bool.false_eq_true, if_false, Option.map_some] <;> rfl

theorem suggestions_endingAt (expander : Expander) (t : Target) (position : Position) (rank : Nat)
    (labels : List Text) :
    suggestions expander (t.endingAt position) rank labels =
      (suggestions expander t rank labels).map (·.endingAt position) := by
  induction labels generalizing rank with
  | nil => rfl
  | cons label labels ih =>
    have hconfig : (t.endingAt position).config = t.config := rfl
    rw [suggestions, suggestions, hconfig]
    cases expansion? expander t.config label with
    | none => exact ih rank
    | some expanded => rw [List.map_cons, ← ih (rank + 1)]; rfl

/-- Where the abbreviation ends has no part in what is offered for it. -/
theorem candidates_endingAt (expander : Expander) (settings : Settings) (t : Target) (position : Position) :
    candidates expander settings (t.endingAt position) =
      (candidates expander settings t).map (·.endingAt position) := by
  have hlabels : suggestionLabels settings (t.endingAt position) = suggestionLabels settings t := rfl
  rw [candidates, candidates, hlabels, ownCandidate_endingAt, suggestions_endingAt, List.map_append,
    Option.toList_map]

theorem target_endingAt {before : Text} (h : beforeCursor document position = some before)
    (h' : beforeCursor document' position' = some before) (hl : position.line = position'.line) :
    target scan document' position' dialect settings snapshot =
      (target scan document position dialect settings snapshot).map (Option.map (·.endingAt position')) := by
  rw [target, target, extract_eq_before h, extract_eq_before h', extractBefore_endingAt before hl]
  cases extractBefore scan dialect before position with
  | error why => rfl
  | ok found? =>
    cases found? with
    | none => rfl
    | some found =>
      have hfilters : (found.endingAt position').filters = found.filters := rfl
      simp only [Except.map, Option.map_some, hfilters]
      cases Config.assemble dialect (request settings found.filters) snapshot <;> rfl

/-! ## Targets and answers -/

theorem complete_of_disabled (hoff : settings.expansionEnabled = false) :
    complete scan expander document position dialect settings snapshot = .ok [] := by
  simp only [complete, completionTarget, hoff, Bool.not_false, if_true]

theorem complete_of_target (hon : settings.expansionEnabled = true)
    (ht : target scan document position dialect settings snapshot = .ok (some t))
    (hopen : ¬ OpensTag document position t) :
    complete scan expander document position dialect settings snapshot =
      .ok (candidates expander settings t) := by
  rw [complete, completionTarget_eq_some_iff.2 ⟨hon, hopen, ht⟩]

theorem complete_of_opensTag (ht : target scan document position dialect settings snapshot = .ok (some t))
    (hopen : OpensTag document position t) :
    complete scan expander document position dialect settings snapshot = .ok [] := by
  rw [complete, completionTarget_eq_none ht (.inr hopen)]

/-- A completion goes along with its target, where the name of a tag is being opened at both
places or at neither. -/
theorem complete_endingAt
    (htarget : target scan document' position' dialect settings snapshot =
      (target scan document position dialect settings snapshot).map (Option.map (·.endingAt position')))
    (hopens : ∀ t, target scan document position dialect settings snapshot = .ok (some t) →
      (OpensTag document' position' (t.endingAt position') ↔ OpensTag document position t)) :
    complete scan expander document' position' dialect settings snapshot =
      (complete scan expander document position dialect settings snapshot).map
        (List.map (·.endingAt position')) := by
  cases hon : settings.expansionEnabled with
  | false =>
    rw [complete_of_disabled hon, complete_of_disabled hon]
    rfl
  | true =>
    cases ht : target scan document position dialect settings snapshot with
    | error why =>
      rw [ht] at htarget
      simp only [complete, completionTarget, hon, ht, htarget]
      rfl
    | ok found =>
      rw [ht] at htarget
      cases found with
      | none =>
        simp only [complete, completionTarget, hon, ht, htarget]
        rfl
      | some t =>
        by_cases hopen : OpensTag document position t
        · rw [complete_of_opensTag ht hopen, complete_of_opensTag htarget ((hopens t ht).2 hopen)]
          rfl
        · rw [complete_of_target hon ht hopen, complete_of_target hon htarget (mt (hopens t ht).1 hopen),
            candidates_endingAt]
          rfl

/-! ## The text before the cursor -/

/-- Within the line the test for a tag being opened reads what the extraction reads. -/
theorem lineBefore_of_le (hline : cursorLine document position = some line)
    (hin : position.column ≤ width line) :
    lineBefore document position = line.take (indexOfColumn line position.column) := by
  obtain ⟨ends, hstored, -⟩ := exists_stored_line hline
  simp only [lineBefore, hstored, Text.indexOfColumn_append ends hin]
  exact List.take_append_of_le_length (Text.indexOfColumn_le_length _ _)

/-- Past the end of a line the test reads all of it, and then some of its terminator. -/
theorem lineBefore_of_lt (hline : cursorLine document position = some line)
    (hpast : width line < position.column) :
    ((Text.lines document.text)[position.line]? = some line ∧ lineBefore document position = line) ∨
    ((Text.lines document.text)[position.line]? ≠ some line ∧
      ∃ more c, IsTerminator c ∧ lineBefore document position = line ++ more ++ [c]) := by
  obtain ⟨ends, hstored, hall⟩ := exists_stored_line hline
  by_cases hne : ends = []
  · rw [hne, List.append_nil] at hstored
    refine .inl ⟨hstored, ?_⟩
    simp only [lineBefore, hstored, Text.indexOfColumn_of_width_le (Nat.le_of_lt hpast), List.take_length]
  · obtain ⟨read, hread, hlead, htake⟩ := Text.take_indexOfColumn_append hpast hne
    obtain ⟨more, c, rfl⟩ := (List.eq_nil_or_concat' read).resolve_left hread
    refine .inr ⟨?_, more, c, hall c (hlead.subset (List.mem_append_right _ List.mem_cons_self)), ?_⟩
    · rw [hstored, Ne, Option.some.injEq, List.append_right_eq_self]
      exact hne
    · simp only [lineBefore, hstored, htake, List.append_assoc]

/-- No abbreviation ends in a terminator, so none is the name of a tag that is opened behind
one. -/
theorem not_opensTag_of_terminator {before : Text} {c : Char}
    (ht : target scan document' position' dialect settings snapshot = .ok (some t))
    (hc : IsTerminator c) (hbefore : lineBefore document position = before ++ [c]) :
    ¬ OpensTag document position t := by
  rintro ⟨-, lead, hsuffix⟩
  obtain ⟨_, _, _, hfound, -⟩ := extract_eq_some_iff.1 (target_eq_some_iff.1 ht).1
  obtain ⟨last, hlast, hblank⟩ := getLast?_abbreviation (extractFromLine_eq_some_iff.1 hfound).2.2.1
  -- The text before the cursor ends in the abbreviation and in the terminator.
  have hends := congrArg List.getLast? (hsuffix.trans hbefore)
  rw [List.getLast?_append, List.getLast?_cons, hlast, List.getLast?_concat] at hends
  obtain rfl : last = c := by simpa using hends
  rw [hc.blank] at hblank
  cases hblank

/-! ## Another document -/

/-- **A completion reads the text before the cursor.** Where the cursor is within its line in
one document, and a line of the same number in another document agrees with it up to the
cursor, the completions are the same, with any backward scan, expander, settings and
snapshot. What follows the cursor, the terminators and the other lines have no part in it,
and neither have the names and the languages of the documents. -/
theorem complete_eq_of_same_before (scan : Scanner) (expander : Expander) (dialect : Text)
    (settings : Settings) (snapshot : Extensions.Snapshot) {document document' : Document}
    {position : Position} {line line' : Text} (hline : cursorLine document position = some line)
    (hline' : cursorLine document' position = some line') (hin : position.column ≤ width line)
    (hsame : line.take (indexOfColumn line position.column) =
      line'.take (indexOfColumn line position.column)) :
    complete scan expander document position dialect settings snapshot =
      complete scan expander document' position dialect settings snapshot := by
  have hindex := Text.indexOfColumn_congr hin hsame
  have hin' : position.column ≤ width line' := calc
    position.column ≤ columnOfIndex line (indexOfColumn line position.column) := Text.le_columnOfIndex hin
    _ = columnOfIndex line' (indexOfColumn line position.column) := congrArg width hsame
    _ ≤ width line' := Text.columnOfIndex_le_width _ _
  have hbefore : beforeCursor document position = beforeCursor document' position := by
    rw [beforeCursor, beforeCursor, hline, hline', Option.map_some, Option.map_some, hindex, hsame]
  have hlineBefore : lineBefore document position = lineBefore document' position := by
    rw [lineBefore_of_le hline hin, lineBefore_of_le hline' hin', hindex, hsame]
  have hextract : extract scan document position dialect = extract scan document' position dialect := by
    have hsome : beforeCursor document position = some _ := congrArg (Option.map _) hline
    rw [extract_eq_before hsome, extract_eq_before (hbefore ▸ hsome)]
  rw [complete, complete, completionTarget, completionTarget, target, target, hextract, hlineBefore]

/-- The cursor stands behind `p>ul`, with other lines before, another text behind it and other
terminators; a character of two units is on its left. -/
theorem complete_eq_of_same_before_ul :
    let document : Document :=
      ⟨"file:///a.html".toList, some "html".toList, "x\n😀p>ul|c d\r\nlast".toList⟩
    let document' : Document := ⟨"file:///b.css".toList, none, "<i>\r\n😀p>ul".toList⟩
    let expander : Expander := fun label _ => some ('<' :: label)
    cursorLine document ⟨1, 6⟩ = some "😀p>ul|c d".toList ∧
    cursorLine document' ⟨1, 6⟩ = some "😀p>ul".toList ∧
    complete Scan.start? expander document ⟨1, 6⟩ "html".toList .default (.builtin 0) =
      complete Scan.start? expander document' ⟨1, 6⟩ "html".toList .default (.builtin 0) := by
  intro document document' expander
  have hline : cursorLine document ⟨1, 6⟩ = some "😀p>ul|c d".toList := by decide
  have hline' : cursorLine document' ⟨1, 6⟩ = some "😀p>ul".toList := by decide
  exact ⟨hline, hline', complete_eq_of_same_before _ _ _ _ _ hline hline' (by decide) (by decide)⟩

/-! ## The cursor past the end of its line -/

/-- The end of the line of a position. -/
def lineEnd (position : Position) (line : Text) : Position := ⟨position.line, width line⟩

/-- The test for a tag being opened is evaded past the end of a line: at its end the
abbreviation is the name of such a tag, and a terminator follows. -/
structure Evades (scan : Scanner) (document : Document) (position : Position) (dialect : Text)
    (settings : Settings) (snapshot : Extensions.Snapshot) (line : Text) (t : Target) : Prop where
  terminated : (Text.lines document.text)[position.line]? ≠ some line
  found : target scan document (lineEnd position line) dialect settings snapshot = .ok (some t)
  opens : OpensTag document (lineEnd position line) t

theorem beforeCursor_past_end (hline : cursorLine document position = some line)
    (hpast : width line ≤ position.column) : beforeCursor document position = some line := by
  rw [beforeCursor, hline, Option.map_some, Text.indexOfColumn_of_width_le hpast, List.take_length]

theorem target_past_end (hline : cursorLine document position = some line)
    (hpast : width line < position.column) :
    target scan document position dialect settings snapshot =
      (target scan document (lineEnd position line) dialect settings snapshot).map
        (Option.map (·.endingAt position)) := by
  have hend : beforeCursor document (lineEnd position line) = some line :=
    beforeCursor_past_end hline (Nat.le_refl _)
  exact target_endingAt hend (beforeCursor_past_end hline (Nat.le_of_lt hpast)) rfl

theorem target_past_end_eq_some (hline : cursorLine document position = some line)
    (hpast : width line < position.column)
    (ht : target scan document (lineEnd position line) dialect settings snapshot = .ok (some t)) :
    target scan document position dialect settings snapshot = .ok (some (t.endingAt position)) := by
  rw [target_past_end hline hpast, ht]
  rfl

theorem lineBefore_lineEnd (hline : cursorLine document position = some line) :
    lineBefore document (lineEnd position line) = line := by
  have hend : cursorLine document (lineEnd position line) = some line := hline
  rw [lineBefore_of_le hend (Nat.le_refl _), lineEnd, Text.indexOfColumn_of_width_le (Nat.le_refl _),
    List.take_length]

/-- The answers where the test is evaded: none at the end of the line, and past it all that
there is to offer for the name of the tag. -/
theorem Evades.complete_eq (expander : Expander) (hline : cursorLine document position = some line)
    (hpast : width line < position.column) (hon : settings.expansionEnabled = true)
    (h : Evades scan document position dialect settings snapshot line t) :
    complete scan expander document (lineEnd position line) dialect settings snapshot = .ok [] ∧
    complete scan expander document position dialect settings snapshot =
      .ok ((candidates expander settings t).map (·.endingAt position)) := by
  refine ⟨complete_of_opensTag h.found h.opens, ?_⟩
  have hmoved := target_past_end_eq_some hline hpast h.found
  obtain ⟨hstored, -⟩ | ⟨-, more, c, hc, hbefore⟩ := lineBefore_of_lt hline hpast
  · exact absurd hstored h.terminated
  · rw [complete_of_target hon hmoved (not_opensTag_of_terminator hmoved hc hbefore), candidates_endingAt]

/-- Elsewhere the test says past the end what it says at the end. -/
theorem opensTag_past_end (hline : cursorLine document position = some line)
    (hpast : width line < position.column)
    (ht : target scan document (lineEnd position line) dialect settings snapshot = .ok (some t))
    (h : ¬ Evades scan document position dialect settings snapshot line t) :
    OpensTag document position (t.endingAt position) ↔ OpensTag document (lineEnd position line) t := by
  obtain ⟨-, hbefore⟩ | ⟨hterminated, more, c, hc, hbefore⟩ := lineBefore_of_lt hline hpast
  · rw [OpensTag, OpensTag, hbefore, lineBefore_lineEnd hline]
    rfl
  · have hmoved := target_past_end_eq_some hline hpast ht
    exact iff_of_false (not_opensTag_of_terminator hmoved hc hbefore) fun hopen => h ⟨hterminated, ht, hopen⟩

/-- **How far the cursor is past the end of its line** makes no difference but for where the
ranges end, unless the test for a tag being opened is evaded: a completion is the one at the
end of the line just when it is not so that the name of a tag is being opened there, a
terminator follows, and there is something to offer for that name. -/
theorem complete_past_end_iff (scan : Scanner) (expander : Expander) (dialect : Text)
    (settings : Settings) (snapshot : Extensions.Snapshot) {document : Document} {position : Position}
    {line : Text} (hline : cursorLine document position = some line)
    (hpast : width line < position.column) :
    complete scan expander document position dialect settings snapshot =
      (complete scan expander document (lineEnd position line) dialect settings snapshot).map
        (List.map (·.endingAt position)) ↔
    ¬ (settings.expansionEnabled = true ∧
      ∃ t, Evades scan document position dialect settings snapshot line t ∧
        candidates expander settings t ≠ []) := by
  constructor
  · rintro h ⟨hon, t, hevades, hoffers⟩
    obtain ⟨hend, hmoved⟩ := hevades.complete_eq expander hline hpast hon
    rw [hend, hmoved, Except.map, Except.ok.injEq, List.map_nil, List.map_eq_nil_iff] at h
    exact hoffers h
  · intro hnothing
    by_cases hevades : ∃ t, Evades scan document position dialect settings snapshot line t
    · obtain ⟨t, hevades⟩ := hevades
      cases hon : settings.expansionEnabled with
      | false =>
        rw [complete_of_disabled hon, complete_of_disabled hon]
        rfl
      | true =>
        have hempty : candidates expander settings t = [] :=
          by_contra fun hoffers => hnothing ⟨hon, t, hevades, hoffers⟩
        obtain ⟨hend, hmoved⟩ := hevades.complete_eq expander hline hpast hon
        rw [hend, hmoved, hempty]
        rfl
    · exact complete_endingAt (target_past_end hline hpast) fun t ht =>
        opensTag_past_end hline hpast ht fun h => hevades ⟨t, h⟩

/-- No tag is being opened at the end of this line, so the four columns past it make no
difference. -/
theorem complete_past_end_iff_list :
    let document : Document := ⟨"file:///a.html".toList, some "html".toList, "😀 ul>li\r\n".toList⟩
    let expander : Expander := fun label _ => some ('<' :: label)
    cursorLine document ⟨0, 12⟩ = some "😀 ul>li".toList ∧ width "😀 ul>li".toList = 8 ∧
    complete Scan.start? expander document ⟨0, 12⟩ "html".toList .default (.builtin 0) =
      (complete Scan.start? expander document ⟨0, 8⟩ "html".toList .default (.builtin 0)).map
        (List.map (·.endingAt ⟨0, 12⟩)) := by
  intro document expander
  have hline : cursorLine document ⟨0, 12⟩ = some "😀 ul>li".toList := by decide
  refine ⟨hline, by decide, (complete_past_end_iff _ _ _ _ _ hline (by decide)).2 ?_⟩
  rintro ⟨-, t, ⟨-, -, -, hsuffix⟩, -⟩
  have hno : '<' ∉ lineBefore document (lineEnd ⟨0, 12⟩ "😀 ul>li".toList) := by decide
  exact hno (hsuffix.subset List.mem_cons_self)

/-- Behind `<div` nothing is offered, and one column further, past the line feed, the
expansion of `div` is. -/
theorem complete_past_end_differs :
    let document : Document := ⟨"file:///a.html".toList, some "html".toList, "<div\n".toList⟩
    let expander : Expander := fun label _ => some ('<' :: label ++ "></".toList ++ label ++ ['>'])
    let answer (column : Nat) :=
      complete Scan.start? expander document ⟨0, column⟩ "html".toList .default (.builtin 0)
    cursorLine document ⟨0, 5⟩ = some "<div".toList ∧ width "<div".toList = 4 ∧ answer 4 = .ok [] ∧
    (∃ o others, answer 5 = .ok (o :: others) ∧ o.insertText = "<div></div>".toList) ∧
    answer 5 ≠ (answer 4).map (List.map (·.endingAt ⟨0, 5⟩)) := by
  intro document expander answer
  have hline : cursorLine document ⟨0, 5⟩ = some "<div".toList := by decide
  have htokens : tokenize "div".toList = .ok [⟨.node, "div".toList⟩] := by decide +kernel
  have hvalid : isValid (some "html".toList) (some "div".toList) = .ok true :=
    isMarkup_eq_true_iff.2 ⟨by decide, .inr ⟨'d', _, _, rfl, by decide, by decide,
      tokenize_eq_ok_iff.1 htokens, parse_node _ none⟩⟩
  have hfound : extract Scan.start? document (lineEnd ⟨0, 5⟩ "<div".toList) "html".toList =
      .ok (some ⟨"div".toList, [], ⟨⟨0, 1⟩, ⟨0, 4⟩⟩⟩) := by
    refine extract_eq_some_iff.2 ⟨"<div".toList, 1, by decide, ?_, by decide⟩
    exact extractFromLine_eq_some_iff.2 ⟨by decide, by decide, by decide, hvalid⟩
  obtain ⟨config, hc⟩ : ∃ config,
      Config.assemble "html".toList (request .default []) (.builtin 0) = .ok config := ⟨_, rfl⟩
  have hfamily : config.family = .markup := family_of_assemble hc
  let t : Target := ⟨⟨"div".toList, [], ⟨⟨0, 1⟩, ⟨0, 4⟩⟩⟩, config⟩
  have hopens : "<div".toList <:+ lineBefore document (lineEnd ⟨0, 5⟩ "<div".toList) := by decide
  have hevades : Evades Scan.start? document ⟨0, 5⟩ "html".toList .default (.builtin 0) "<div".toList t :=
    ⟨by decide, target_eq_some_iff.2 ⟨hfound, hc⟩, hfamily, hopens⟩
  have hknown : isKnownKey config "div".toList = true := by
    have htag : commonTags.contains (Text.lower "div".toList) = true := by decide
    rw [isKnownKey, htag]
    rfl
  obtain ⟨o, ho, -, hinsert⟩ := @exists_ownCandidate expander t _ rfl (isNoise_of_isKnownKey hfamily hknown)
  have hcandidates : candidates expander .default t =
      o :: suggestions expander t 1 (suggestionLabels .default t) := by
    rw [candidates, ho]
    rfl
  obtain ⟨hend, hpast⟩ := hevades.complete_eq expander hline (by decide) rfl
  have hend : answer 4 = .ok [] := hend
  rw [hcandidates, List.map_cons] at hpast
  refine ⟨hline, by decide, hend, ⟨_, _, hpast, ?_⟩, ?_⟩
  · rw [hfamily] at hinsert
    exact hinsert
  · intro h
    rw [hend] at h
    cases hpast.symm.trans h

end Shorthand.Completion
