/-
Whether the snippets of a user are offered when their keys are typed. For markup they are, whatever
they expand to. For stylesheets an expansion is compared with what an unknown abbreviation would
expand to, and no snippet is asked for: `complete_typed_snippet_iff` says that this comparison is
all that stands in the way.
-/
import Shorthand.Proofs.Completion.Target
import Shorthand.Proofs.Expansion.Layers
import Shorthand.Proofs.Extensions.Nearest

namespace Shorthand.Completion

open Abbreviation Expansion

variable {expander : Expander} {settings : Settings} {t : Target} {dialect expanded : Text}

/-! ## Candidates other than that of the typed abbreviation -/

theorem not_mem_distinctLabels {abbreviation typed label : Text} {seen keys : List Text} (h : label ∈ seen) :
    label ∉ distinctLabels abbreviation typed seen keys := by
  induction keys generalizing seen with
  | nil => exact List.not_mem_nil
  | cons key keys ih =>
    rw [distinctLabels]
    split
    next => exact ih h
    next label' _ =>
      split
      next => exact ih h
      next hnew =>
        rw [List.mem_cons, not_or]
        refine ⟨?_, ih (List.mem_cons_of_mem label' h)⟩
        rintro rfl
        exact hnew (List.contains_iff_mem.2 h)

/-- The typed abbreviation is not suggested. -/
theorem abbreviation_not_mem_suggestionLabels (settings : Settings) (t : Target) :
    t.extracted.abbreviation ∉ suggestionLabels settings t := by
  rw [suggestionLabels]
  split
  · exact not_mem_distinctLabels List.mem_cons_self
  · exact List.not_mem_nil

/-- Without a candidate of its own the typed abbreviation is not offered: none of the candidates is
found under it. -/
theorem filterText_of_ownCandidate_eq_none (h : ownCandidate expander t = none) {o : Candidate}
    (ho : o ∈ candidates expander settings t) : o.rank ≠ 0 ∧ o.filterText ≠ some t.extracted.abbreviation := by
  have hrank : o.rank ≠ 0 := by
    intro hrank
    rw [mem_candidates_rank_zero.1 ⟨ho, hrank⟩] at h
    cases h
  rw [candidates, h, Option.toList_none, List.nil_append] at ho
  have hlisted := listed_suggestions expander t 1 (suggestionLabels settings t)
  have hlabel := List.mem_map_of_mem (f := Candidate.label) ho
  rw [hlisted.labels, List.mem_filter] at hlabel
  refine ⟨hrank, fun hfilter => ?_⟩
  obtain ⟨_, -, -, heq⟩ := hlisted.expanded o ho
  rw [heq, candidate] at hfilter
  cases hfamily : t.config.family with
  | markup =>
    rw [hfamily] at hfilter
    cases hfilter
  | stylesheet =>
    rw [hfamily] at hfilter
    rw [Option.some.inj hfilter] at hlabel
    exact abbreviation_not_mem_suggestionLabels settings t hlabel.1

/-! ## Noise -/

/-- A stylesheet expansion that an unknown abbreviation would have too: a property without a value,
or the abbreviation itself. -/
def LooksUnresolved (dialect abbreviation expanded : Text) : Prop :=
  Dialect.family dialect = .stylesheet ∧
    (expanded = abbreviation ++ ": $\x7b1\x7d".toList ++ declarationEnd dialect ∨
      withoutBlanks expanded = withoutBlanks abbreviation ++ declarationEnd dialect)

theorem snippets_of_assemble {request : Request} {snapshot : Extensions.Snapshot} {config : Config}
    (h : Config.assemble dialect request snapshot = .ok config) (hknown : Dialect.isKnown dialect = true) :
    config.snippets = snapshot.resolveSnippets dialect := by
  obtain ⟨_, _, -, -, rfl⟩ := assemble_eq_ok_iff.1 h
  exact if_pos hknown

/-- The key of a snippet is no noise, but for an expansion that looks like that of an unknown
abbreviation. -/
theorem isNoise_snippet_iff {request : Request} {snapshot : Extensions.Snapshot} {config : Config}
    {abbreviation value : Text} {snippets : Extensions.Snippets}
    (hconfig : Config.assemble dialect request snapshot = .ok config) (hknown : Dialect.isKnown dialect = true)
    (hsnippets : snapshot.resolveSnippets dialect = some snippets)
    (hkey : snippets.get? abbreviation = some value) (expanded : Text) :
    isNoise config abbreviation expanded = true ↔ LooksUnresolved dialect abbreviation expanded := by
  have hfamily := family_of_assemble hconfig
  cases hd : Dialect.family dialect with
  | markup =>
    have hkeyed : isKnownKey config abbreviation = true := by
      rw [isKnownKey, snippets_of_assemble hconfig hknown, hsnippets, Option.map_some, Option.getD_some,
        Data.Dict.contains_iff.2 ⟨value, hkey⟩, Bool.or_true]
    rw [isNoise_of_isKnownKey (hfamily.trans hd) hkeyed, LooksUnresolved, hd]
    simp
  | stylesheet =>
    rw [isNoise, hfamily, hd, dialect_of_assemble hconfig, LooksUnresolved]
    simp only [isStylesheetNoise, Bool.or_eq_true, beq_iff_eq, hd, true_and]

/-! ## A stylesheet and snapshots with snippets for it -/

/-- A snapshot with snippets for stylesheets. -/
def stylesheetSnapshot (snippets : Extensions.Snippets) : Extensions.Snapshot :=
  { Extensions.Snapshot.builtin 1 with snippets := some (.ofList [(.text "css".toList, snippets)]) }

theorem resolveSnippets_stylesheetSnapshot (snippets : Extensions.Snippets) :
    (stylesheetSnapshot snippets).resolveSnippets "css".toList = some snippets := by
  have hlineage : (stylesheetSnapshot snippets).lineage "css".toList = ["css".toList] := by
    have hchain : Dialect.chain "css".toList {} = ["css".toList] := by decide +kernel
    exact congrArg List.reverse hchain
  rw [Extensions.Snapshot.resolveSnippets, hlineage]
  exact congrArg some (Data.Dict.ofList_entries snippets)

theorem exists_assemble_stylesheetSnapshot (snippets : Extensions.Snippets) :
    ∃ config, Config.assemble "css".toList (request .default []) (stylesheetSnapshot snippets) = .ok config := ⟨_, rfl⟩

/-- A stylesheet in which `foo` is typed, the key of a snippet. -/
def typedFoo : Document := ⟨"file:///a.css".toList, some "css".toList, "foo".toList⟩

def fooSnippets (value : Text) : Extensions.Snippets := .ofList [("foo".toList, value)]

def fooSnapshot (value : Text) : Extensions.Snapshot :=
  { Extensions.Snapshot.builtin 1 with snippets := some (.ofList [(.text "css".toList, fooSnippets value)]) }

theorem extract_typedFoo :
    extract Scan.start? typedFoo ⟨0, 3⟩ "css".toList =
      .ok (some ⟨"foo".toList, [], ⟨⟨0, 0⟩, ⟨0, 3⟩⟩⟩) := by
  decide

theorem resolveSnippets_fooSnapshot (value : Text) :
    (fooSnapshot value).resolveSnippets "css".toList = some (fooSnippets value) :=
  resolveSnippets_stylesheetSnapshot _

theorem exists_assemble_fooSnapshot (value : Text) :
    ∃ config, Config.assemble "css".toList (request .default []) (fooSnapshot value) = .ok config :=
  exists_assemble_stylesheetSnapshot _

/-! ## Typed keys -/

/-- **The snippet of a typed key** comes first of all candidates, whatever its text expands to,
unless that looks like the expansion of an unknown abbreviation: then there is no candidate for the
key at all. Only a configuration that cannot be put together leaves no answer. -/
theorem complete_typed_snippet_iff (scan : Scanner) (expander : Expander) (document : Document)
    (position : Position) (dialect : Text) (settings : Settings) (snapshot : Extensions.Snapshot)
    {extracted : Extracted} {snippets : Extensions.Snippets} {value : Text}
    (hknown : Dialect.isKnown dialect = true) (hon : settings.expansionEnabled = true)
    (hx : extract scan document position dialect = .ok (some extracted))
    (hsnippets : snapshot.resolveSnippets dialect = some snippets)
    (hkey : snippets.get? extracted.abbreviation = some value)
    (hguard : ¬ (Dialect.family dialect = .markup ∧
      '<' :: extracted.abbreviation <:+ lineBefore document position)) :
    match Config.assemble dialect (request settings extracted.filters) snapshot with
    | .error why =>
      complete scan expander document position dialect settings snapshot = .error (.profileKey why)
    | .ok config =>
      ∃ answer, complete scan expander document position dialect settings snapshot = .ok answer ∧
        ∀ expanded, expander extracted.abbreviation config = some expanded → expanded ≠ [] →
          (answer.head? = some (typedCandidate ⟨extracted, config⟩ expanded) ↔
            ¬ LooksUnresolved dialect extracted.abbreviation expanded) ∧
          (LooksUnresolved dialect extracted.abbreviation expanded →
            ∀ o ∈ answer, o.rank ≠ 0 ∧ o.filterText ≠ some extracted.abbreviation) := by
  rw [complete_of_extract expander snapshot hon hx hguard]
  cases hc : Config.assemble dialect (request settings extracted.filters) snapshot with
  | error why => rfl
  | ok config =>
    refine ⟨_, rfl, fun expanded hexpanded hne => ?_⟩
    have hown := ownCandidate_of_expansion (t := ⟨extracted, config⟩) (expansion?_eq_some_iff.2 ⟨hexpanded, hne⟩)
    have hnoise := isNoise_snippet_iff hc hknown hsnippets hkey expanded
    by_cases hlooks : LooksUnresolved dialect extracted.abbreviation expanded
    · rw [if_pos (hnoise.2 hlooks)] at hown
      refine ⟨iff_of_false (fun hhead => ?_) (not_not_intro hlooks), fun _ o ho =>
        filterText_of_ownCandidate_eq_none hown ho⟩
      have hrank := (filterText_of_ownCandidate_eq_none hown (List.mem_of_mem_head? hhead)).1
      exact hrank (rank_typedCandidate _ _)
    · rw [if_neg (mt hnoise.1 hlooks)] at hown
      rw [candidates, hown]
      exact ⟨iff_of_true rfl hlooks, fun h => absurd h hlooks⟩

/-- A snippet for a property with a blank value. -/
theorem complete_typed_snippet_iff_property :
    let expander : Expander := fun _ _ => some "bar: $\x7b1\x7d;".toList
    ∃ o others,
      complete Scan.start? expander typedFoo ⟨0, 3⟩ "css".toList .default (fooSnapshot "bar".toList) =
        .ok (o :: others) ∧
      o.rank = 0 ∧ o.insertText = "bar: $\x7b1\x7d;".toList := by
  intro expander
  have hall := complete_typed_snippet_iff Scan.start? expander typedFoo ⟨0, 3⟩ "css".toList .default
    (fooSnapshot "bar".toList) (by decide) rfl extract_typedFoo (resolveSnippets_fooSnapshot _) rfl (by decide)
  obtain ⟨config, hconfig⟩ := exists_assemble_fooSnapshot "bar".toList
  simp only [hconfig] at hall
  obtain ⟨answer, hanswer, hall⟩ := hall
  have hresolved : ¬ LooksUnresolved "css".toList "foo".toList "bar: $\x7b1\x7d;".toList := by
    rintro ⟨-, h⟩
    revert h
    decide
  have hhead := (hall _ rfl (by decide)).1.2 hresolved
  obtain ⟨others, rfl⟩ := List.head?_eq_some_iff.1 hhead
  refine ⟨_, others, hanswer, rank_typedCandidate _ _, ?_⟩
  have hfamily : config.family = .stylesheet := family_of_assemble hconfig
  simp only [typedCandidate, hfamily, candidate]
  decide

/-- The snippet `foo:${1}` gives a property without a value, as an unknown `foo` would, and nothing
is offered. -/
theorem complete_typed_snippet_withheld :
    let expander : Expander := fun _ _ => some "foo: $\x7b1\x7d;".toList
    Dialect.isKnown "css".toList = true ∧ Settings.default.expansionEnabled = true ∧
    extract Scan.start? typedFoo ⟨0, 3⟩ "css".toList =
      .ok (some ⟨"foo".toList, [], ⟨⟨0, 0⟩, ⟨0, 3⟩⟩⟩) ∧
    (∃ snippets, (fooSnapshot "foo:$\x7b1\x7d".toList).resolveSnippets "css".toList = some snippets ∧
      snippets.get? "foo".toList = some "foo:$\x7b1\x7d".toList) ∧
    complete Scan.start? expander typedFoo ⟨0, 3⟩ "css".toList .default (fooSnapshot "foo:$\x7b1\x7d".toList) =
      .ok [] := by
  intro expander
  refine ⟨by decide, rfl, extract_typedFoo, ⟨_, resolveSnippets_fooSnapshot _, rfl⟩, ?_⟩
  obtain ⟨config, hconfig⟩ := exists_assemble_fooSnapshot "foo:$\x7b1\x7d".toList
  have hfamily : config.family = .stylesheet := family_of_assemble hconfig
  have hsnippets : config.snippets = some (fooSnippets "foo:$\x7b1\x7d".toList) :=
    (snippets_of_assemble hconfig (by decide)).trans (resolveSnippets_fooSnapshot _)
  let t : Target := ⟨⟨"foo".toList, [], ⟨⟨0, 0⟩, ⟨0, 3⟩⟩⟩, config⟩
  have hown : ownCandidate expander t = none := by
    have hx : expansion? expander t.config t.extracted.abbreviation = some "foo: $\x7b1\x7d;".toList := rfl
    rw [ownCandidate_of_expansion hx, if_pos]
    have hlooks : LooksUnresolved "css".toList "foo".toList "foo: $\x7b1\x7d;".toList := ⟨by decide, .inl (by decide)⟩
    exact (isNoise_snippet_iff hconfig (by decide) (resolveSnippets_fooSnapshot _) rfl _).2 hlooks
  have hlabels : suggestionLabels .default t = [] := by
    rw [@suggestionLabels_eq .default t [] rfl rfl, List.map_eq_nil_iff, List.filter_eq_nil_iff]
    intro key hkey
    have hkey : key ∈ (fooSnippets "foo:$\x7b1\x7d".toList).keys := by
      rcases mem_suggestionKeys.1 hkey with ⟨snippets, hmem, hkey⟩ | ⟨hmarkup, -⟩
      · rw [hsnippets] at hmem
        cases hmem
        exact hkey
      · cases hfamily.symm.trans hmarkup
    obtain rfl : key = "foo".toList := List.mem_singleton.1 hkey
    show ¬ goesOn (typedPart .default "foo".toList) "foo".toList = true
    decide
  have hon : Settings.default.expansionEnabled = true := rfl
  have hcomplete := complete_of_extract expander (fooSnapshot "foo:$\x7b1\x7d".toList) hon extract_typedFoo
    (by decide)
  rw [hconfig] at hcomplete
  refine hcomplete.trans (congrArg Except.ok ?_)
  show candidates expander .default t = []
  rw [candidates, hown, hlabels]
  rfl

end Shorthand.Completion
