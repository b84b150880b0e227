/-
For which texts it is decided whether they are abbreviations. Whatever the tokenizer or the
grammar finds wrong with a text, it is no abbreviation. The one exception is a count whose
digits are not read as a number: where the pieces of a markup text lead up to one, there is
no answer (`isMarkup_eq_error_iff`), and none for a place in a document either where the scan
finds such a text (`extract_eq_error_iff`).
-/
import Shorthand.Proofs.Abbreviation.Place

namespace Shorthand.Abbreviation

open Text (Run indexOfColumn isDigit isDecimal)

/-- A text that is cut into tokens to see what it is: it begins like a node or a group. -/
def BeginsMarkup (t : Text) : Prop := ∃ c ∈ t.head?, c ≠ '!' ∧ isMarkupStart c = true

/-- A text of a family about which there is no answer, for these digits. -/
structure Undecided (family : Dialect.Family) (t digits : Text) : Prop where
  markup : family = .markup
  begins : BeginsMarkup t
  stops : StopsAtCount t digits

/-- The tokenizer or the grammar finds something wrong with a text. -/
def Refused (t : Text) : Prop :=
  (∃ why, tokenize t = .error (.malformed why)) ∨
    ∃ tokens why, tokenize t = .ok tokens ∧ parse tokens = .error why

/-- What the scan finds before a position of a document, split from its filters. -/
def Spans (scan : Scanner) (document : Document) (position : Position) (dialect : Text)
    (found : Filtered) : Prop :=
  ∃ line start, cursorLine document position = some line ∧
    start? scan (Dialect.family dialect) line (indexOfColumn line position.column) = some start ∧
    start < indexOfColumn line position.column ∧
    Filtered.ofText? ((line.take (indexOfColumn line position.column)).drop start) = some found

theorem StopsAtCount.not_digits {t digits : Text} (h : StopsAtCount t digits) :
    isEmptyOrDigits t = false := by
  obtain ⟨lead, tokens, rest, rfl, -⟩ := h
  have hmark : isDigit '*' = false := by decide
  simp [isEmptyOrDigits, hmark]

theorem isMarkup_eq_error_iff {t digits : Text} :
    isMarkup t = .error ⟨digits⟩ ↔ BeginsMarkup t ∧ StopsAtCount t digits := by
  unfold isMarkup
  by_cases hword : isEmptyOrDigits t = true
  · rw [if_pos hword]
    constructor
    · intro h
      cases h
    · rintro ⟨-, hstops⟩
      rw [hstops.not_digits] at hword
      cases hword
  rw [if_neg hword, ← tokenize_eq_unreadable_iff, BeginsMarkup]
  split
  next => simp
  next rest => simp
  next c rest hc =>
    have hc : c ≠ '!' := hc
    by_cases hstart : isMarkupStart c = true
    · simp only [hstart, Bool.not_true, Bool.false_eq_true, if_false]
      cases htokens : tokenize (c :: rest) with
      | error fault => cases fault <;> simp [hc, hstart]
      | ok tokens => cases hparse : parse tokens <;> simp [hparse]
    · simp [hstart]

/-- What is refused is no abbreviation, unless it is a doctype. -/
theorem isMarkup_of_refused {t : Text} (hdoctype : ¬ IsDoctype t) (h : Refused t) :
    isMarkup t = .ok false := by
  cases hmarkup : isMarkup t with
  | error why =>
    have hstops := tokenize_eq_unreadable_iff.2 (isMarkup_eq_error_iff.1 hmarkup).2
    rcases h with ⟨why, hwhy⟩ | ⟨tokens, why, htokens, -⟩
    · rw [hwhy] at hstops
      cases hstops
    · rw [htokens] at hstops
      cases hstops
  | ok valid =>
    cases valid with
    | false => rfl
    | true =>
      obtain ⟨-, hdoctype' | ⟨c, rest, tokens, rfl, -, -, hcut, hparse⟩⟩ := isMarkup_eq_true_iff.1 hmarkup
      · exact absurd hdoctype' hdoctype
      · have htokens := tokenize_eq_ok_iff.2 hcut
        rcases h with ⟨why, hwhy⟩ | ⟨tokens', why, htokens', hwhy⟩
        · rw [htokens] at hwhy
          cases hwhy
        · rw [htokens, Except.ok.injEq] at htokens'
          rw [← htokens', hparse] at hwhy
          cases hwhy

theorem isValid_eq_error_iff {dialect t : Option Text} {digits : Text} :
    isValid dialect t = .error ⟨digits⟩ ↔
      ∃ text ∈ t, Undecided (Dialect.familyOf dialect) text digits := by
  cases t with
  | none => simp [isValid]
  | some text =>
    simp only [isValid, Option.mem_some_iff, exists_eq_left']
    by_cases hword : isEmptyOrDigits text = true
    · rw [if_pos hword]
      constructor
      · intro h
        cases h
      · intro h
        rw [h.stops.not_digits] at hword
        cases hword
    · rw [if_neg hword]
      cases hfamily : Dialect.familyOf dialect with
      | markup =>
        rw [isValidIn, isMarkup_eq_error_iff]
        exact ⟨fun h => ⟨rfl, h.1, h.2⟩, fun h => ⟨h.begins, h.stops⟩⟩
      | stylesheet =>
        constructor
        · intro h
          cases h
        · intro h
          cases h.markup

theorem isValid_of_refused {dialect : Option Text} {t : Text} (hfamily : Dialect.familyOf dialect = .markup)
    (hdoctype : ¬ IsDoctype t) (h : Refused t) : isValid dialect (some t) = .ok false := by
  simp only [isValid, hfamily, isValidIn, isMarkup_of_refused hdoctype h, ite_self]

theorem extract_eq_error_iff {scan : Scanner} {document : Document} {position : Position} {dialect : Text}
    {why : UnreadableCount} :
    extract scan document position dialect = .error why ↔
      ∃ found, Spans scan document position dialect found ∧
        isValid (some dialect) (some found.abbreviation) = .error why := by
  simp only [Spans, ← exists_and_right, and_assoc]
  rw [extract, cursorLine]
  cases (Text.lines document.text)[position.line]? with
  | none => simp
  | some line =>
    simp only [Option.map_some, Option.some.injEq, exists_and_left, exists_eq_left', extractFromLine]
    generalize Text.withoutTerminator line = line
    cases start? scan (Dialect.family dialect) line (indexOfColumn line position.column) with
    | none => simp [Except.map]
    | some start =>
      by_cases hle : indexOfColumn line position.column ≤ start
      · simp [if_pos hle, Nat.not_lt.2 hle, Except.map]
      · simp only [if_neg hle, Option.some.injEq, exists_eq_left', Nat.lt_of_not_le hle, true_and]
        cases Filtered.ofText? ((line.take (indexOfColumn line position.column)).drop start) with
        | none => simp [Except.map]
        | some found =>
          simp only [Option.some.injEq, exists_eq_left']
          cases isValid (some dialect) (some found.abbreviation) with
          | error why' => simp [Except.map, bind, Except.bind]
          | ok valid => simp [Except.map, bind, Except.bind, pure, Except.pure]

/-- **Every text is decided but for a count that cannot be read.** There is an answer for
each dialect and each text, given or missing, unless the pieces of a markup text lead up to a
repetition with digits that are not read as a number; and what the tokenizer or the grammar
refuses is no abbreviation. So there is an answer for each place of a document, whatever the
scan finds there, unless it finds such a text. -/
theorem isValid_decides_unless_unreadable (dialect t : Option Text) (scan : Scanner) (document : Document)
    (position : Position) (given : Option Text) :
    (∀ digits, isValid dialect t = .error ⟨digits⟩ ↔
      ∃ text ∈ t, Undecided (Dialect.familyOf dialect) text digits) ∧
    (Dialect.familyOf dialect = .markup → ∀ text ∈ t, ¬ IsDoctype text → Refused text →
      isValid dialect t = .ok false) ∧
    ∀ digits, extract scan document position (given.getD (documentDialect document)) = .error ⟨digits⟩ ↔
      ∃ found, Spans scan document position (given.getD (documentDialect document)) found ∧
        Undecided (Dialect.family (given.getD (documentDialect document))) found.abbreviation digits := by
  refine ⟨fun _ => isValid_eq_error_iff, ?_, fun digits => ?_⟩
  · rintro hfamily text rfl hdoctype hrefused
    exact isValid_of_refused hfamily hdoctype hrefused
  · simp only [extract_eq_error_iff, isValid_eq_error_iff, Option.mem_some_iff, exists_eq_left', Dialect.familyOf]

/-- The bracket of the attributes is in a string, so that the block is not closed. -/
theorem isValid_decides_unless_unreadable_unclosed :
    let t := "ul>a[b=\"]".toList
    Dialect.familyOf (some "jsx".toList) = .markup ∧ ¬ IsDoctype t ∧ Refused t ∧
      isValid (some "jsx".toList) (some t) = .ok false := by
  intro t
  have hfamily : Dialect.familyOf (some "jsx".toList) = .markup := by decide
  have hdoctype : ¬ IsDoctype t := by
    rintro ⟨rest, heq, -⟩
    exact absurd (List.cons.inj heq).1 (by decide)
  have hrefused : Refused t := .inl ⟨.unclosed '[' 4, by decide +kernel⟩
  obtain ⟨-, hdecided, -⟩ := isValid_decides_unless_unreadable (some "jsx".toList) (some t) Scan.start?
    ⟨"file:///a.jsx".toList, none, t⟩ ⟨0, 0⟩ none
  exact ⟨hfamily, hdoctype, hrefused, hdecided hfamily t rfl hdoctype hrefused⟩

/-- **There is not always an answer.** The superscript two is a digit, but not a decimal one:
for `ul*²` there is no answer. In `x[a="["]*²]` the scan counts the brackets of strings and
so takes the whole line, in which the block ends before the count. -/
theorem isValid_not_always :
    (¬ ∀ dialect t, ∃ valid, isValid dialect t = .ok valid) ∧
    ¬ ∀ document position dialect, ∃ found, extract Scan.start? document position dialect = .ok found := by
  have hunreadable : Unreadable ['²'] := .inl ⟨'²', List.mem_singleton_self _, by decide⟩
  have hdigit : ∀ c ∈ ['²'], isDigit c = true := List.forall_mem_singleton.2 (by decide)
  constructor
  · intro claim
    have hstops : StopsAtCount "ul*²".toList ['²'] := by
      refine ⟨"ul".toList, [⟨.node, "ul".toList⟩], [], rfl, ?_, ⟨hdigit, Text.stops_nil _⟩, hunreadable⟩
      exact tokenize_eq_ok_iff.1 (by decide +kernel)
    have herror : isValid (some "html".toList) (some "ul*²".toList) = .error ⟨['²']⟩ :=
      isValid_eq_error_iff.2 ⟨_, rfl, by decide, ⟨'u', rfl, by decide, by decide⟩, hstops⟩
    obtain ⟨valid, hvalid⟩ := claim (some "html".toList) (some "ul*²".toList)
    rw [herror] at hvalid
    cases hvalid
  · intro claim
    let t := "x[a=\"[\"]*²]".toList
    let document : Document := ⟨"file:///a.html".toList, some "html".toList, t⟩
    have hstops : StopsAtCount t ['²'] := by
      refine ⟨"x[a=\"[\"]".toList, [⟨.node, "x[a=\"[\"]".toList⟩], [']'], rfl, ?_,
        ⟨hdigit, Text.stops_cons.2 (by decide)⟩, hunreadable⟩
      exact tokenize_eq_ok_iff.1 (by decide +kernel)
    have herror : extract Scan.start? document ⟨0, 11⟩ "html".toList = .error ⟨['²']⟩ := by
      refine extract_eq_error_iff.2 ⟨⟨t, []⟩, ⟨t, 0, by decide, by decide, by decide, by decide⟩, ?_⟩
      exact isValid_eq_error_iff.2 ⟨_, rfl, by decide, ⟨'x', rfl, by decide, by decide⟩, hstops⟩
    obtain ⟨found, hfound⟩ := claim document ⟨0, 11⟩ "html".toList
    rw [herror] at hfound
    cases hfound

end Shorthand.Abbreviation
