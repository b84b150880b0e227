/-
The suggestions of a completion, described without the loop that finds them: which keys
there are, in which order, and what each of them is offered as.

`complete_eq_suggestions` says that a completion is the candidate of the typed
abbreviation, if there is one, and then a candidate for every key that goes on from the
typed part and expands to something. No key is lost to another one with the same label.
-/
import Mathlib.Data.List.Nodup
import Shorthand.Completion.Candidate

namespace Shorthand

namespace Text

theorem before_iff_lt {s t : Text} : before s t = true ↔ s < t := by
  induction s generalizing t with
  | nil => cases t <;> simp [before]
  | cons a s ih =>
    cases t with
    | nil => simp [before]
    | cons b t =>
      rw [before, List.cons_lt_cons_iff, Bool.or_eq_true, Bool.and_eq_true, decide_eq_true_iff, beq_iff_eq, ih]
      exact Iff.rfl

theorem after?_eq_some_iff {lead t rest : Text} : after? lead t = some rest ↔ t = lead ++ rest := by
  induction lead generalizing t with
  | nil => simp [after?]
  | cons p lead ih =>
    cases t with
    | nil => simp [after?]
    | cons c t =>
      rw [after?]
      split
      next h => rw [ih, h, List.cons_append, List.cons.injEq, eq_self, true_and]
      next h =>
        constructor
        · intro hn
          cases hn
        · intro hc
          cases hc
          exact absurd rfl h

end Text

namespace Completion

open Abbreviation Expansion

/-! ## Keys -/

/-- Shorter keys come first, and keys of one length by code points. -/
def Precedes (a b : Text) : Prop := a.length < b.length ∨ (a.length = b.length ∧ a < b)

/-- The keys of the custom snippets, and for markup the built-in ones. -/
def Offered (c : Config) (key : Text) : Prop :=
  (∃ snippets ∈ c.snippets, key ∈ snippets.keys) ∨
  (c.family = .markup ∧ (key ∈ markupSnippetKeys ∨ key ∈ commonTags))

/-- All the keys that are offered and go on from the typed part, in their order. -/
structure Continuations (c : Config) (typed : Text) (keys : List Text) : Prop where
  ordered : keys.Pairwise Precedes
  mem_iff : ∀ key, key ∈ keys ↔ Offered c key ∧ typed <+: key ∧ typed ≠ key

theorem keyBefore_iff {a b : Text} : keyBefore a b = true ↔ Precedes a b ∨ a = b := by
  have hle : (!Text.before b a) = true ↔ a < b ∨ a = b := by
    rw [Bool.not_eq_true', ← Bool.not_eq_true, Text.before_iff_lt]
    exact List.le_iff_lt_or_eq
  rw [keyBefore, Precedes, Bool.or_eq_true, Bool.and_eq_true, decide_eq_true_iff, beq_iff_eq, hle]
  constructor
  · rintro (h | ⟨h, hlt | rfl⟩)
    · exact .inl (.inl h)
    · exact .inl (.inr ⟨h, hlt⟩)
    · exact .inr rfl
  · rintro ((h | ⟨h, hlt⟩) | rfl)
    · exact .inl h
    · exact .inr ⟨h, .inl hlt⟩
    · exact .inr ⟨rfl, .inr rfl⟩

theorem Precedes.trans {a b c : Text} (hab : Precedes a b) (hbc : Precedes b c) : Precedes a c := by
  rcases hab with hab | ⟨hab, hlt⟩ <;> rcases hbc with hbc | ⟨hbc, hlt'⟩
  · exact .inl (by omega)
  · exact .inl (by omega)
  · exact .inl (by omega)
  · exact .inr ⟨by omega, List.lt_trans hlt hlt'⟩

theorem precedes_or_eq (a b : Text) : Precedes a b ∨ a = b ∨ Precedes b a := by
  rcases Nat.lt_trichotomy a.length b.length with h | h | h
  · exact .inl (.inl h)
  · by_cases hlt : a < b
    · exact .inl (.inr ⟨h, hlt⟩)
    · rcases List.le_iff_lt_or_eq.1 (List.not_lt.1 hlt) with hgt | heq
      · exact .inr (.inr (.inr ⟨h.symm, hgt⟩))
      · exact .inr (.inl heq.symm)
  · exact .inr (.inr (.inl h))

theorem keyBefore_trans (a b c : Text) (hab : keyBefore a b = true) (hbc : keyBefore b c = true) :
    keyBefore a c = true := by
  rw [keyBefore_iff] at *
  rcases hab with hab | rfl
  · rcases hbc with hbc | rfl
    · exact .inl (hab.trans hbc)
    · exact .inl hab
  · exact hbc

theorem keyBefore_total (a b : Text) : (keyBefore a b || keyBefore b a) = true := by
  rw [Bool.or_eq_true, keyBefore_iff, keyBefore_iff]
  rcases precedes_or_eq a b with h | h | h
  · exact .inl (.inl h)
  · exact .inl (.inr h)
  · exact .inr (.inl h)

theorem nodup_eraseDups : ∀ keys : List Text, keys.eraseDups.Nodup
  | [] => List.nodup_nil
  | key :: keys => by
    rw [List.eraseDups_cons, List.nodup_cons]
    refine ⟨fun hmem => ?_, nodup_eraseDups _⟩
    rw [List.mem_eraseDups, List.mem_filter] at hmem
    simp at hmem
termination_by keys => keys.length
decreasing_by exact Nat.lt_succ_of_le (List.length_filter_le _ _)

theorem suggestionKeys_nodup (c : Config) : (suggestionKeys c).Nodup :=
  (List.mergeSort_perm _ _).nodup_iff.2 (nodup_eraseDups _)

theorem suggestionKeys_ordered (c : Config) : (suggestionKeys c).Pairwise Precedes := by
  have hsorted : (suggestionKeys c).Pairwise fun a b => keyBefore a b = true :=
    List.pairwise_mergeSort keyBefore_trans keyBefore_total _
  refine (hsorted.and (suggestionKeys_nodup c)).imp fun ⟨hle, hne⟩ => ?_
  exact (keyBefore_iff.1 hle).resolve_right hne

theorem mem_suggestionKeys {c : Config} {key : Text} : key ∈ suggestionKeys c ↔ Offered c key := by
  rw [suggestionKeys, List.mem_mergeSort, List.mem_eraseDups, List.mem_append, Offered]
  refine or_congr ?_ ?_
  · cases c.snippets with
    | none => simp
    | some snippets => simp
  · cases c.family with
    | markup => simp
    | stylesheet => simp

/-- Whether a key begins with a text and is longer. -/
def goesOn (typed key : Text) : Bool := typed.isPrefixOf key && typed != key

theorem goesOn_iff {typed key : Text} : goesOn typed key = true ↔ typed <+: key ∧ typed ≠ key := by
  rw [goesOn, Bool.and_eq_true, List.isPrefixOf_iff_prefix, bne_iff_ne]

theorem continuations_filter (c : Config) (typed : Text) :
    Continuations c typed ((suggestionKeys c).filter (goesOn typed)) := by
  refine ⟨(suggestionKeys_ordered c).filter _, fun key => ?_⟩
  rw [List.mem_filter, mem_suggestionKeys, goesOn_iff]

theorem Continuations.nodup {c : Config} {typed : Text} {keys : List Text}
    (h : Continuations c typed keys) : keys.Nodup := by
  refine h.ordered.imp fun {a b} hab heq => ?_
  subst heq
  rcases hab with hab | ⟨-, hab⟩
  · exact absurd hab (Nat.lt_irrefl _)
  · exact absurd hab (List.lt_irrefl _)

/-! ## The typed part -/

/-- An abbreviation ends in the name of a node behind `>` or `+`. -/
def InnerNode (abbreviation name : Text) : Prop :=
  ∃ lead c, abbreviation = lead ++ c :: name ∧ (c = '>' ∨ c = '+') ∧ name ≠ [] ∧
    ∀ x ∈ name, Text.isWordChar x = true ∨ x = ':' ∨ x = '-'

/-- The part of an abbreviation that keys go on from: the name of its last node where
that is asked for and there is one, and else all of it. -/
def TypedPart (settings : Settings) (abbreviation typed : Text) : Prop :=
  (settings.matchInnerNode = true ∧ InnerNode abbreviation typed) ∨
  (typed = abbreviation ∧ (settings.matchInnerNode = true → ∀ name, ¬ InnerNode abbreviation name))

theorem isNodeChar_iff {c : Char} :
    isNodeChar c = true ↔ Text.isWordChar c = true ∨ c = ':' ∨ c = '-' := by
  rw [isNodeChar, Bool.or_eq_true, Bool.or_eq_true, beq_iff_eq, beq_iff_eq, or_assoc]

theorem isNodeChar_of_sign {c : Char} (h : c = '>' ∨ c = '+') : isNodeChar c = false := by
  rcases h with rfl | rfl <;> decide

theorem innerNode?_eq_some_iff {abbreviation name : Text} :
    innerNode? abbreviation = some name ↔ InnerNode abbreviation name := by
  rw [innerNode?]
  constructor
  · intro h
    have hsplit := List.takeWhile_append_dropWhile (p := isNodeChar) (l := abbreviation.reverse)
    split at h
    next c rest hc =>
      rw [hc] at hsplit
      simp only [Option.ite_none_right_eq_some, Option.some.injEq, Bool.and_eq_true, Bool.or_eq_true,
        decide_eq_true_eq, Bool.not_eq_true', List.isEmpty_eq_false_iff] at h
      obtain ⟨⟨hsign, hne⟩, rfl⟩ := h
      refine ⟨rest.reverse, c, ?_, hsign, hne, fun x hx => ?_⟩
      · have hrev := congrArg List.reverse hsplit
        rw [List.reverse_append, List.reverse_reverse, List.reverse_cons, List.append_assoc] at hrev
        exact hrev.symm
      · exact isNodeChar_iff.1 (List.all_eq_true.1 List.all_takeWhile x (List.mem_reverse.1 hx))
    next => cases h
  · rintro ⟨lead, c, rfl, hsign, hne, hall⟩
    have hrev : (lead ++ c :: name).reverse = name.reverse ++ c :: lead.reverse := by simp
    have hname : ∀ x ∈ name.reverse, isNodeChar x = true := fun x hx =>
      isNodeChar_iff.2 (hall x (List.mem_reverse.1 hx))
    have hdrop : (c :: lead.reverse).dropWhile isNodeChar = c :: lead.reverse := by
      rw [List.dropWhile_cons, isNodeChar_of_sign hsign]
      rfl
    have htake : (c :: lead.reverse).takeWhile isNodeChar = [] := by
      rw [List.takeWhile_cons, isNodeChar_of_sign hsign]
      rfl
    simp only [hrev, List.dropWhile_append_of_pos hname, List.takeWhile_append_of_pos hname, hdrop, htake]
    simp [hsign, hne]

/-- There is one typed part, the one that completion takes. -/
theorem typedPart_iff {settings : Settings} {abbreviation typed : Text} :
    TypedPart settings abbreviation typed ↔ typed = typedPart settings abbreviation := by
  rw [typedPart, TypedPart]
  cases settings.matchInnerNode with
  | false => simp
  | true =>
    cases hi : innerNode? abbreviation with
    | some name =>
      rw [innerNode?_eq_some_iff] at hi
      constructor
      · rintro (⟨-, h⟩ | ⟨-, hnone⟩)
        · have heq := innerNode?_eq_some_iff.2 h
          rw [innerNode?_eq_some_iff.2 hi, Option.some.injEq] at heq
          exact heq.symm
        · exact absurd hi (hnone rfl name)
      · rintro rfl
        exact .inl ⟨rfl, hi⟩
    | none =>
      have hnone : ∀ name, ¬ InnerNode abbreviation name := by
        intro name hname
        rw [innerNode?_eq_some_iff.2 hname] at hi
        cases hi
      constructor
      · rintro (⟨-, h⟩ | ⟨h, -⟩)
        · exact absurd h (hnone typed)
        · exact h
      · intro h
        exact .inr ⟨h, fun _ => hnone⟩

/-- The typed part ends the abbreviation. -/
theorem TypedPart.suffix {settings : Settings} {abbreviation typed : Text}
    (h : TypedPart settings abbreviation typed) : typed <:+ abbreviation := by
  rcases h with ⟨-, lead, c, rfl, -⟩ | ⟨rfl, -⟩
  · exact ⟨lead ++ [c], by simp⟩
  · exact List.suffix_refl _

/-! ## Labels -/

theorem suggestionLabel?_eq_some_iff {lead typed key label : Text} :
    suggestionLabel? (lead ++ typed) typed key = some label ↔
      goesOn typed key = true ∧ label = lead ++ key := by
  rw [suggestionLabel?, goesOn_iff]
  cases ha : Text.after? typed key with
  | none =>
    constructor
    · intro h
      cases h
    · rintro ⟨⟨⟨more, rfl⟩, -⟩, -⟩
      rw [Text.after?_eq_some_iff.2 rfl] at ha
      cases ha
  | some more =>
    obtain rfl := Text.after?_eq_some_iff.1 ha
    cases more with
    | nil => simp
    | cons c more => simp [eq_comm]

/-- No key is left out because its label was seen before. -/
theorem distinctLabels_eq {lead typed : Text} {seen keys : List Text} (hnodup : keys.Nodup)
    (hseen : ∀ key ∈ keys, goesOn typed key = true → lead ++ key ∉ seen) :
    distinctLabels (lead ++ typed) typed seen keys = (keys.filter (goesOn typed)).map (lead ++ ·) := by
  induction keys generalizing seen with
  | nil => rfl
  | cons key keys ih =>
    rw [List.nodup_cons] at hnodup
    have hrest : ∀ k ∈ keys, goesOn typed k = true → lead ++ k ∉ seen := fun k hk =>
      hseen k (List.mem_cons_of_mem key hk)
    cases hlabel : suggestionLabel? (lead ++ typed) typed key with
    | none =>
      have hoff : ¬ goesOn typed key = true := by
        intro hon
        rw [suggestionLabel?_eq_some_iff.2 ⟨hon, rfl⟩] at hlabel
        cases hlabel
      rw [distinctLabels, hlabel, List.filter_cons_of_neg hoff]
      exact ih hnodup.2 hrest
    | some label =>
      obtain ⟨hon, rfl⟩ := suggestionLabel?_eq_some_iff.1 hlabel
      have hnew : ¬ seen.contains (lead ++ key) = true := by
        rw [List.contains_iff_mem]
        exact hseen key List.mem_cons_self hon
      rw [distinctLabels, hlabel, List.filter_cons_of_pos hon, List.map_cons]
      simp only [if_neg hnew]
      refine congrArg _ (ih hnodup.2 fun k hk hgo => ?_)
      rw [List.mem_cons, not_or]
      refine ⟨fun heq => ?_, hrest k hk hgo⟩
      -- Labels differ as their keys do.
      rw [List.append_cancel_left heq] at hk
      exact hnodup.1 hk

theorem suggestionLabels_eq {settings : Settings} {t : Target} {lead : Text}
    (hshow : settings.showSuggestions = true)
    (ha : t.extracted.abbreviation = lead ++ typedPart settings t.extracted.abbreviation) :
    suggestionLabels settings t =
      ((suggestionKeys t.config).filter (goesOn (typedPart settings t.extracted.abbreviation))).map
        (lead ++ ·) := by
  rw [suggestionLabels, if_pos hshow]
  generalize typedPart settings t.extracted.abbreviation = typed at *
  rw [ha]
  refine distinctLabels_eq (suggestionKeys_nodup _) fun key _ hgo hmem => ?_
  have heq := List.append_cancel_left (List.mem_singleton.1 hmem)
  exact (goesOn_iff.1 hgo).2 heq.symm

/-! ## Expansions -/

/-- Whether a label expands to something. -/
def expands (expander : Expander) (c : Config) (label : Text) : Bool :=
  (expander label c).any (!·.isEmpty)

theorem expansion?_eq_some_iff {expander : Expander} {c : Config} {label expanded : Text} :
    expansion? expander c label = some expanded ↔ expander label c = some expanded ∧ expanded ≠ [] := by
  rw [expansion?, Option.filter_eq_some_iff]
  simp

theorem expands_eq (expander : Expander) (c : Config) (label : Text) :
    expands expander c label = (expansion? expander c label).isSome := by
  rw [expands, expansion?]
  cases expander label c with
  | none => rfl
  | some expanded => cases expanded <;> rfl

/-- What is offered for the labels that expand to something: their ranks go on from
`rank` without gaps. -/
structure Listed (expander : Expander) (t : Target) (rank : Nat) (labels : List Text)
    (listed : List Candidate) : Prop where
  labels : listed.map (·.label) = labels.filter (expands expander t.config)
  ranks : listed.map (·.rank) = List.range' rank listed.length
  expanded : ∀ o ∈ listed, ∃ expanded, expander o.label t.config = some expanded ∧ expanded ≠ [] ∧
    o = candidate t o.label expanded o.rank
      (match t.config.family with
        | .stylesheet => some o.label
        | .markup => none)

theorem listed_suggestions (expander : Expander) (t : Target) (rank : Nat) (labels : List Text) :
    Listed expander t rank labels (suggestions expander t rank labels) := by
  induction labels generalizing rank with
  | nil => exact ⟨rfl, rfl, fun _ h => by cases h⟩
  | cons label labels ih =>
    cases hx : expansion? expander t.config label with
    | none =>
      have hoff : ¬ expands expander t.config label = true := by
        rw [expands_eq, hx]
        exact Bool.false_ne_true
      rw [suggestions, hx]
      obtain ⟨hl, hr, he⟩ := ih rank
      exact ⟨by rw [hl, List.filter_cons_of_neg hoff], hr, he⟩
    | some expanded =>
      have hon : expands expander t.config label = true := by
        rw [expands_eq, hx]
        rfl
      rw [suggestions, hx]
      obtain ⟨hl, hr, he⟩ := ih (rank + 1)
      refine ⟨?_, ?_, fun o ho => ?_⟩
      · rw [List.filter_cons_of_pos hon, ← hl]
        rfl
      · rw [List.map_cons, hr]
        rfl
      · rcases List.mem_cons.1 ho with rfl | ho
        · obtain ⟨heq, hne⟩ := expansion?_eq_some_iff.1 hx
          exact ⟨expanded, heq, hne, rfl⟩
        · exact he o ho

/-- The expander that gives an empty text where `expander` gives none. -/
def silent (expander : Expander) : Expander := fun label c => some ((expander label c).getD [])

theorem expansion?_silent (expander : Expander) (c : Config) (label : Text) :
    expansion? (silent expander) c label = expansion? expander c label := by
  rw [expansion?, expansion?, silent]
  cases expander label c <;> rfl

theorem candidates_silent (expander : Expander) (settings : Settings) (t : Target) :
    candidates (silent expander) settings t = candidates expander settings t := by
  have hown : ownCandidate (silent expander) t = ownCandidate expander t := by
    rw [ownCandidate, ownCandidate, expansion?_silent]
  have hlist : ∀ rank labels,
      suggestions (silent expander) t rank labels = suggestions expander t rank labels := by
    intro rank labels
    induction labels generalizing rank with
    | nil => rfl
    | cons label labels ih =>
      rw [suggestions, suggestions, expansion?_silent]
      cases expansion? expander t.config label with
      | none => exact ih rank
      | some expanded => exact congrArg _ (ih (rank + 1))
  rw [candidates, candidates, hown, hlist]

theorem rank_ownCandidate {expander : Expander} {t : Target} {o : Candidate}
    (h : o ∈ ownCandidate expander t) : o.rank = 0 := by
  rw [ownCandidate] at h
  split at h
  · cases h
  · split at h
    · cases h
    · split at h <;> cases h <;> rfl

/-! ## The whole completion -/

theorem family_of_assemble {dialect : Text} {request : Request} {snapshot : Extensions.Snapshot}
    {config : Config} (h : Config.assemble dialect request snapshot = .ok config) :
    config.family = Dialect.family dialect := by
  simp only [Config.assemble, bind, Except.bind] at h
  split at h
  · cases h
  split at h
  · cases h
  · cases h
    rfl

/-- What is found on a line when the scan stops before the cursor at something valid. -/
theorem extract_eq_some {scan : Scanner} {document : Document} {position : Position} {dialect line : Text}
    {start : Nat} {found : Filtered} (hline : (Text.lines document.text)[position.line]? = some line)
    (hstart : start? scan (Dialect.family dialect) (Text.withoutTerminator line)
      (Text.indexOfColumn (Text.withoutTerminator line) position.column) = some start)
    (hlt : start < Text.indexOfColumn (Text.withoutTerminator line) position.column)
    (hfound : Filtered.ofText? (((Text.withoutTerminator line).take
      (Text.indexOfColumn (Text.withoutTerminator line) position.column)).drop start) = some found)
    (hvalid : isValid (some dialect) (some found.abbreviation) = .ok true) :
    extract scan document position dialect = .ok (some
      { abbreviation := found.abbreviation
        filters := found.filters
        range := ⟨⟨position.line, Text.columnOfIndex (Text.withoutTerminator line) start⟩, position⟩ }) := by
  simp only [extract, hline, extractFromLine, hstart, if_neg (Nat.not_le.2 hlt), hfound, hvalid]
  rfl

/-- Where the name of a tag is not being typed, a completion is what its configuration
makes of it. -/
theorem complete_of_extract {scan : Scanner} {document : Document} {position : Position}
    {dialect : Text} {settings : Settings} {extracted : Extracted} (expander : Expander)
    (snapshot : Extensions.Snapshot) (hon : settings.expansionEnabled = true)
    (hx : extract scan document position dialect = .ok (some extracted))
    (hguard : ¬ (Dialect.family dialect = .markup ∧
      '<' :: extracted.abbreviation <:+ lineBefore document position)) :
    complete scan expander document position dialect settings snapshot =
      match Config.assemble dialect (request settings extracted.filters) snapshot with
      | .error why => .error (.profileKey why)
      | .ok config => .ok (candidates expander settings ⟨extracted, config⟩) := by
  simp only [complete, completionTarget, hon, target, hx, Bool.not_true, Bool.false_eq_true, if_false]
  cases hc : Config.assemble dialect (request settings extracted.filters) snapshot with
  | error why => rfl
  | ok config =>
    have hoff : ¬ (decide (config.family = .markup) &&
        opensTag (lineBefore document position) extracted.abbreviation) = true := by
      rw [Bool.and_eq_true, decide_eq_true_iff, opensTag, List.isSuffixOf_iff_suffix, family_of_assemble hc]
      exact hguard
    simp only [if_neg hoff]

/-- **The candidates at a position**, where an abbreviation is found that is not the name
of a tag being opened: one of rank 0 perhaps, and then one for every key that goes on from
the typed part and expands to something, ranked from 1 on without gaps. The labels are
those of all such keys, all different, and none is the abbreviation itself; that there is
no expansion is the same as an empty one. Only a configuration that cannot be put together
leaves no answer. -/
theorem complete_eq_suggestions (scan : Scanner) (expander : Expander) (document : Document)
    (position : Position) (dialect : Text) (settings : Settings) (snapshot : Extensions.Snapshot)
    {extracted : Extracted} (hon : settings.expansionEnabled = true)
    (hshow : settings.showSuggestions = true)
    (hx : extract scan document position dialect = .ok (some extracted))
    (hguard : ¬ (Dialect.family dialect = .markup ∧
      '<' :: extracted.abbreviation <:+ lineBefore document position)) :
    complete scan (silent expander) document position dialect settings snapshot =
      complete scan expander document position dialect settings snapshot ∧
    match Config.assemble dialect (request settings extracted.filters) snapshot with
    | .error why =>
      complete scan expander document position dialect settings snapshot = .error (.profileKey why)
    | .ok config =>
      ∃ (typed lead : Text) (keys : List Text) (own : Option Candidate) (listed : List Candidate),
        TypedPart settings extracted.abbreviation typed ∧ extracted.abbreviation = lead ++ typed ∧
        Continuations config typed keys ∧
        Listed expander ⟨extracted, config⟩ 1 (keys.map (lead ++ ·)) listed ∧
        (∀ o ∈ own, o.rank = 0) ∧
        complete scan expander document position dialect settings snapshot = .ok (own.toList ++ listed) ∧
        (keys.map (lead ++ ·)).Nodup ∧ extracted.abbreviation ∉ keys.map (lead ++ ·) := by
  have hcomplete := fun e => complete_of_extract e snapshot hon hx hguard
  rw [hcomplete (silent expander), hcomplete expander]
  cases hc : Config.assemble dialect (request settings extracted.filters) snapshot with
  | error why => exact ⟨rfl, rfl⟩
  | ok config =>
    refine ⟨by simp only [candidates_silent], ?_⟩
    have htyped : TypedPart settings extracted.abbreviation _ := typedPart_iff.2 rfl
    obtain ⟨lead, hlead⟩ := htyped.suffix
    have hkeys := continuations_filter config (typedPart settings extracted.abbreviation)
    refine ⟨_, lead, _, ownCandidate expander ⟨extracted, config⟩, _, htyped, hlead.symm, hkeys,
      listed_suggestions .., fun o ho => rank_ownCandidate ho, ?_, ?_, ?_⟩
    · have hlabels := @suggestionLabels_eq settings ⟨extracted, config⟩ lead hshow hlead.symm
      simp only [candidates, hlabels]
    · exact hkeys.nodup.map (List.append_right_injective lead)
    · intro hmem
      obtain ⟨key, hkey, heq⟩ := List.mem_map.1 hmem
      rw [← hlead] at heq
      exact ((hkeys.mem_iff key).1 hkey).2.2 (List.append_cancel_left heq).symm

/-- Behind `b>` the typed part is `l`: `li` is offered, and `label` is not when there is no
expansion of it. -/
theorem complete_eq_suggestions_inner :
    let document : Document := ⟨"file:///a.html".toList, none, "b>l".toList⟩
    let settings : Settings := { Settings.default with showExpansion := .withInnerNode }
    let expander : Expander := fun label _ => if label = "b>label".toList then none else some label
    ∃ (own : Option Candidate) (listed : List Candidate),
      complete Scan.start? expander document ⟨0, 3⟩ "html".toList settings (.builtin 0) =
        .ok (own.toList ++ listed) ∧
      listed.map (·.rank) = List.range' 1 listed.length ∧
      "b>li".toList ∈ listed.map (·.label) ∧ "b>label".toList ∉ listed.map (·.label) := by
  intro document settings expander
  have hvalid : isValid (some "html".toList) (some ['b', '>', 'l']) = .ok true := by
    have hb : isNameChar 'b' = true := by decide
    have hl : isNameChar 'l' = true := by decide
    have hsign : isNameChar '>' = false := by decide
    have hword : isEmptyOrDigits ['b', '>', 'l'] = false := by decide
    have htokens : tokenize ['b', '>', 'l'] =
        .ok [⟨.node, ['b']⟩, ⟨.operator, ['>']⟩, ⟨.node, ['l']⟩] := by
      simp [tokenize, tokensAt, nodeLength, hb, hl, hsign, Except.map]
    have hparse : parse [⟨.node, ['b']⟩, ⟨.operator, ['>']⟩, ⟨.node, ['l']⟩] = .ok () := by
      simp [parse, expression, item, operands, skipRepetition, endsHere]
    have hmarkup : isMarkup ['b', '>', 'l'] = .ok true := by
      simp only [isMarkup, hword, htokens, hparse, Bool.false_eq_true, if_false]
      rfl
    exact hmarkup
  have hx := @extract_eq_some Scan.start? document ⟨0, 3⟩ "html".toList ['b', '>', 'l'] 0
    ⟨['b', '>', 'l'], []⟩ (by decide) (by decide) (by decide) (by decide) hvalid
  have hguard : ¬ (Dialect.family "html".toList = .markup ∧ "<b>l".toList <:+ lineBefore document ⟨0, 3⟩) := by
    decide
  have hall := (complete_eq_suggestions Scan.start? expander document ⟨0, 3⟩ "html".toList settings
    (.builtin 0) rfl rfl hx hguard).2
  have hconfig : (Config.assemble "html".toList (request settings []) (.builtin 0)).toOption.isSome := by rfl
  cases hc : Config.assemble "html".toList (request settings []) (.builtin 0) with
  | error why =>
    rw [hc] at hconfig
    cases hconfig
  | ok config =>
    simp only [hc] at hall
    obtain ⟨typed, lead, keys, own, listed, htyped, hlead, hkeys, hlisted, -, hcomplete, -, -⟩ := hall
    have hpart : typedPart settings ['b', '>', 'l'] = ['l'] := by decide
    obtain rfl : typed = ['l'] := (typedPart_iff.1 htyped).trans hpart
    have hlead : ['b', '>'] ++ ['l'] = lead ++ ['l'] := hlead
    obtain rfl := List.append_cancel_right hlead
    have hmarkup : config.family = .markup := family_of_assemble hc
    refine ⟨own, listed, hcomplete, hlisted.ranks, ?_, ?_⟩
    · rw [hlisted.labels, List.mem_filter, List.mem_map]
      refine ⟨⟨"li".toList, (hkeys.mem_iff _).2 ⟨.inr ⟨hmarkup, .inr (by decide)⟩, by decide, by decide⟩, rfl⟩, ?_⟩
      rfl
    · rw [hlisted.labels, List.mem_filter]
      rintro ⟨-, h⟩
      cases h

end Completion

end Shorthand
