/-
The label of the typed abbreviation in markup: the abbreviation and its filters, joined by bars. What
is typed has a backslash before each bar that is part of the abbreviation, the label has none, so that
it reads as what was typed just when there is no such bar (`label_reads_back_iff`).
-/
import Shorthand.Proofs.Abbreviation.Decoded
import Shorthand.Proofs.Abbreviation.Place
import Shorthand.Proofs.Completion.Target

namespace Shorthand.Completion

open Abbreviation Expansion

variable {scan : Scanner} {expander : Expander} {document : Document} {position : Position} {dialect : Text}
  {settings : Settings} {snapshot : Extensions.Snapshot} {t : Target} {o : Candidate} {answer : List Candidate}

theorem label_ownCandidate (hfamily : t.config.family = .markup) (h : ownCandidate expander t = some o) :
    o.label = typedLabel t.extracted := by
  obtain ⟨expanded, -, -, rfl⟩ := ownCandidate_eq_some_iff.1 h
  exact label_typedCandidate hfamily expanded

/-- An abbreviation that was found was read from its line, and is valid. -/
theorem decoded_of_extract {extracted : Extracted}
    (hx : extract scan document position dialect = .ok (some extracted)) :
    Decoded ⟨extracted.abbreviation, extracted.filters⟩ ∧
      isValid (some dialect) (some extracted.abbreviation) = .ok true := by
  obtain ⟨line, start, -, hfound, -⟩ := extract_eq_some_iff.1 hx
  obtain ⟨-, -, hread, hvalid⟩ := extractFromLine_eq_some_iff.1 hfound
  exact ⟨decoded_of_ofText? hread, hvalid⟩

theorem paired_of_isValid {abbreviation : Text} (hfamily : Dialect.family dialect = .markup)
    (h : isValid (some dialect) (some abbreviation) = .ok true) : Paired abbreviation := by
  simp only [isValid] at h
  split at h
  next => cases h
  next =>
    rw [Dialect.familyOf, hfamily] at h
    exact paired_of_isMarkup h

/-- The answer where the typed abbreviation is expanded to itself. -/
theorem exists_complete_echo {extracted : Extracted}
    (hx : extract Scan.start? document position "html".toList = .ok (some extracted))
    (hopen : ¬ '<' :: extracted.abbreviation <:+ lineBefore document position)
    (hne : extracted.abbreviation ≠ []) (hword : wordBeforePeriod? extracted.abbreviation = none)
    (htag : Text.lower extracted.abbreviation ≠ emptyTag (Text.lower extracted.abbreviation)) :
    ∃ o others, complete Scan.start? echo document position "html".toList .default (.builtin 0) = .ok (o :: others) ∧
      o.rank = 0 ∧ o.label = typedLabel extracted := by
  obtain ⟨config, hc⟩ : ∃ config,
      Config.assemble "html".toList (request .default extracted.filters) (.builtin 0) = .ok config := ⟨_, rfl⟩
  have hfamily : config.family = .markup := family_of_assemble hc
  have hexpansion : expansion? echo config extracted.abbreviation = some extracted.abbreviation :=
    expansion?_eq_some_iff.2 ⟨rfl, hne⟩
  obtain ⟨others, hanswer⟩ := exists_complete_cons (t := ⟨extracted, config⟩) rfl (fun h => hopen h.2)
    (target_eq_some_iff.2 ⟨hx, hc⟩) hexpansion (isNoise_of_ne_emptyTag hfamily hword htag)
  exact ⟨_, others, hanswer, rank_typedCandidate _ _, label_typedCandidate hfamily _⟩

theorem isValid_html_node {c : Char} {rest : Text} (hc : c ≠ '!') (hstart : isMarkupStart c = true)
    (hdigits : isEmptyOrDigits (c :: rest) = false) (htokens : tokenize (c :: rest) = .ok [⟨.node, c :: rest⟩]) :
    isValid (some "html".toList) (some (c :: rest)) = .ok true := by
  have hmarkup := isMarkup_eq_true_iff.2 ⟨hdigits, .inr ⟨c, rest, _, rfl, hc, hstart, tokenize_eq_ok_iff.1 htokens,
    parse_node _ none⟩⟩
  simp only [isValid, hdigits]
  exact hmarkup

/-- **The label of the typed abbreviation** is what was found, with a bar before each filter. It reads
as that abbreviation and those filters just when there is no bar in the abbreviation. -/
theorem label_reads_back_iff (hfamily : Dialect.family dialect = .markup)
    (hanswer : complete scan expander document position dialect settings snapshot = .ok answer) (ho : o ∈ answer)
    (hrank : o.rank = 0) :
    ∃ extracted, extract scan document position dialect = .ok (some extracted) ∧
      o.label = typedLabel extracted ∧
      (Filtered.ofText? o.label = some ⟨extracted.abbreviation, extracted.filters⟩ ↔
        '|' ∉ extracted.abbreviation) := by
  obtain ⟨t, ht, rfl⟩ := exists_target_of_mem hanswer ho
  obtain ⟨hx, hconfig⟩ := target_eq_some_iff.1 ht
  have hown := mem_candidates_rank_zero.1 ⟨ho, hrank⟩
  have hlabel := label_ownCandidate ((family_of_assemble hconfig).trans hfamily) hown
  obtain ⟨hdecoded, hvalid⟩ := decoded_of_extract hx
  refine ⟨t.extracted, hx, hlabel, ?_⟩
  have hread := ofText?_joinWith_iff hdecoded (paired_of_isValid hfamily hvalid)
  rw [hlabel, typedLabel]
  exact hread

/-- A text in braces with an escaped brace in it, and two filters. -/
theorem label_reads_back_iff_brace :
    let document : Document := ⟨"file:///a.html".toList, some "html".toList, "p\x7ba\\\x7db\x7d|bem|c".toList⟩
    ∃ o others, complete Scan.start? echo document ⟨0, 13⟩ "html".toList .default (.builtin 0) = .ok (o :: others) ∧
      o.rank = 0 ∧ Filtered.ofText? o.label = some ⟨"p\x7ba\\\x7db\x7d".toList, ["bem".toList, ['c']]⟩ := by
  intro document
  have hvalid : isValid (some "html".toList) (some "p\x7ba\\\x7db\x7d".toList) = .ok true :=
    isValid_html_node (by decide) (by decide) (by decide) (by decide +kernel)
  have hx : extract Scan.start? document ⟨0, 13⟩ "html".toList =
      .ok (some ⟨"p\x7ba\\\x7db\x7d".toList, ["bem".toList, ['c']], ⟨⟨0, 0⟩, ⟨0, 13⟩⟩⟩) := by
    refine extract_eq_some_iff.2 ⟨document.text, 0, by decide, ?_, by decide⟩
    exact extractFromLine_eq_some_iff.2 ⟨by decide +kernel, by decide, by decide, hvalid⟩
  obtain ⟨o, others, hanswer, hrank, -⟩ :=
    exists_complete_echo hx (by decide) (by decide) (by decide) (by decide)
  obtain ⟨extracted, hx', -, hread⟩ := label_reads_back_iff (by decide) hanswer List.mem_cons_self hrank
  rw [hx, Except.ok.injEq, Option.some.injEq] at hx'
  subst hx'
  exact ⟨o, others, hanswer, hrank, hread.2 (by decide)⟩

/-- Behind `p{a\|b}` the label is `p{a|b}`, which reads as an abbreviation `p{a` with a filter. -/
theorem label_of_escaped_bar :
    let document : Document := ⟨"file:///a.html".toList, some "html".toList, "p\x7ba\\|b\x7d".toList⟩
    extract Scan.start? document ⟨0, 7⟩ "html".toList =
        .ok (some ⟨"p\x7ba|b\x7d".toList, [], ⟨⟨0, 0⟩, ⟨0, 7⟩⟩⟩) ∧
      ∃ o others, complete Scan.start? echo document ⟨0, 7⟩ "html".toList .default (.builtin 0) = .ok (o :: others) ∧
        o.rank = 0 ∧ Filtered.ofText? o.label = some ⟨"p\x7ba".toList, [['b']]⟩ := by
  intro document
  have hvalid : isValid (some "html".toList) (some "p\x7ba|b\x7d".toList) = .ok true :=
    isValid_html_node (by decide) (by decide) (by decide) (by decide +kernel)
  have hx : extract Scan.start? document ⟨0, 7⟩ "html".toList =
      .ok (some ⟨"p\x7ba|b\x7d".toList, [], ⟨⟨0, 0⟩, ⟨0, 7⟩⟩⟩) := by
    refine extract_eq_some_iff.2 ⟨document.text, 0, by decide, ?_, by decide⟩
    exact extractFromLine_eq_some_iff.2 ⟨by decide +kernel, by decide, by decide, hvalid⟩
  obtain ⟨o, others, hanswer, hrank, hlabel⟩ :=
    exists_complete_echo hx (by decide) (by decide) (by decide) (by decide)
  refine ⟨hx, o, others, hanswer, hrank, ?_⟩
  rw [hlabel]
  decide

end Shorthand.Completion
