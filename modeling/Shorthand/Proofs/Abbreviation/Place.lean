/-
Where an abbreviation stands that was found in a document. `extract_eq_some_iff` says
what finding one means, for any backward scan, and `extract_range` that its range is
the place of the scan: the columns of the range lead back to the indices between which
the abbreviation was read, wherever on the line the cursor is and whatever stands there.
-/
import Shorthand.Abbreviation.Extract
import Shorthand.Proofs.Abbreviation.Markup
import Shorthand.Proofs.Text.Column

namespace Shorthand.Abbreviation

open Text (indexOfColumn columnOfIndex between withoutTerminator)

/-- The line of a position, without its terminator. -/
def cursorLine (document : Document) (position : Position) : Option Text :=
  (Text.lines document.text)[position.line]?.map withoutTerminator

theorem extractFromLine_eq_some_iff {scan : Scanner} {dialect line : Text} {column start : Nat}
    {filtered : Filtered} :
    extractFromLine scan dialect line column = .ok (some (start, filtered)) ↔
      start? scan (Dialect.family dialect) line (indexOfColumn line column) = some start ∧
      start < indexOfColumn line column ∧
      Filtered.ofText? ((line.take (indexOfColumn line column)).drop start) = some filtered ∧
      isValid (some dialect) (some filtered.abbreviation) = .ok true := by
  constructor
  · intro h
    simp only [extractFromLine] at h
    split at h
    next => cases h
    next begin hstart =>
      split at h
      next => cases h
      next hlt =>
        split at h
        next => cases h
        next found hfound =>
          cases hvalid : isValid (some dialect) (some found.abbreviation) with
          | error why =>
            rw [hvalid] at h
            cases h
          | ok valid =>
            rw [hvalid] at h
            cases valid with
            | false => cases h
            | true =>
              cases h
              exact ⟨hstart, Nat.lt_of_not_le hlt, hfound, hvalid⟩
  · rintro ⟨hstart, hlt, hfound, hvalid⟩
    simp only [extractFromLine, hstart, if_neg (Nat.not_le.2 hlt), hfound, hvalid]
    rfl

/-- What is found at a position, and what it takes to be found. -/
theorem extract_eq_some_iff {scan : Scanner} {document : Document} {position : Position}
    {dialect : Text} {found : Extracted} :
    extract scan document position dialect = .ok (some found) ↔
      ∃ line start, cursorLine document position = some line ∧
        extractFromLine scan dialect line position.column =
          .ok (some (start, ⟨found.abbreviation, found.filters⟩)) ∧
        found.range = ⟨⟨position.line, columnOfIndex line start⟩, position⟩ := by
  rw [extract, cursorLine]
  cases (Text.lines document.text)[position.line]? with
  | none => simp
  | some line =>
    simp only [Option.map_some, Option.some.injEq, exists_and_left, exists_eq_left']
    cases extractFromLine scan dialect (withoutTerminator line) position.column with
    | error why => simp [Except.map]
    | ok result =>
      cases result with
      | none => simp [Except.map]
      | some result =>
        obtain ⟨start, filtered⟩ := result
        obtain ⟨abbreviation, filters, range⟩ := found
        simp only [Except.map, Option.map_some, Except.ok.injEq, Option.some.injEq, Extracted.mk.injEq,
          Prod.mk.injEq]
        constructor
        · rintro ⟨rfl, rfl, rfl⟩
          exact ⟨start, ⟨rfl, rfl⟩, rfl⟩
        · rintro ⟨start, ⟨rfl, rfl⟩, rfl⟩
          exact ⟨rfl, rfl, rfl⟩

/-- **The range of an abbreviation is where it was read**, with any backward scan and for a
dialect that is given or else that of the document. The range ends at the cursor, is not
empty, and does not leave its line; the indices of its two columns are those between which
the scan ran; and the characters that begin in it are split into the abbreviation and its
filters, the abbreviation being valid in the dialect. -/
theorem extract_range {scan : Scanner} {document : Document} {position : Position}
    {given : Option Text} {found : Extracted}
    (h : extract scan document position (given.getD (documentDialect document)) = .ok (some found)) :
    found.range.start.line = position.line ∧ found.range.stop = position ∧
    found.range.start.column < found.range.stop.column ∧
    isValid (some (given.getD (documentDialect document))) (some found.abbreviation) = .ok true ∧
    ∃ line start stop, cursorLine document position = some line ∧
      start? scan (Dialect.family (given.getD (documentDialect document))) line (stop : Nat) = some start ∧
      start < stop ∧ stop ≤ line.length ∧
      indexOfColumn line found.range.start.column = start ∧
      indexOfColumn line found.range.stop.column = stop ∧
      (line.take stop).drop start = between found.range.start.column found.range.stop.column 0 line ∧
      Filtered.ofText? (between found.range.start.column found.range.stop.column 0 line) =
        some ⟨found.abbreviation, found.filters⟩ := by
  obtain ⟨line, start, hline, hfound, hrange⟩ := extract_eq_some_iff.1 h
  obtain ⟨hstart, hlt, hsplit, hvalid⟩ := extractFromLine_eq_some_iff.1 hfound
  have hle : indexOfColumn line position.column ≤ line.length := Text.indexOfColumn_le_length line _
  have hback : indexOfColumn line (columnOfIndex line start) = start :=
    Text.indexOfColumn_columnOfIndex (by omega)
  have hslice := Text.slice_eq_between line (columnOfIndex line start) position.column
  rw [hback] at hslice
  have hcolumn : columnOfIndex line start < position.column :=
    (Text.lt_indexOfColumn_iff position.column (by omega)).1 hlt
  rw [hrange]
  refine ⟨rfl, rfl, hcolumn, hvalid, line, start, _, hline, hstart, hlt, hle, hback, rfl, hslice, ?_⟩
  rw [← hslice]
  exact hsplit

/-- The cursor is inside the surrogate pair of the digit, and another pair stands before the
letter: the range goes from the column 2 to the column 4, and the indices are 1 and 3. -/
theorem extract_range_surrogates :
    let document : Document := ⟨"file:///a.html".toList, some "html".toList, "😀h𝟏".toList⟩
    let found : Extracted := ⟨"h𝟏".toList, [], ⟨⟨0, 2⟩, ⟨0, 4⟩⟩⟩
    extract Scan.start? document ⟨0, 4⟩ (documentDialect document) = .ok (some found) ∧
    start? Scan.start? .markup "😀h𝟏".toList 3 = some 1 ∧
    indexOfColumn "😀h𝟏".toList found.range.start.column = 1 ∧
    indexOfColumn "😀h𝟏".toList found.range.stop.column = 3 ∧
    Filtered.ofText? (between 2 4 0 "😀h𝟏".toList) = some ⟨"h𝟏".toList, []⟩ := by
  intro document found
  have htokens : tokenize "h𝟏".toList = .ok [⟨.node, "h𝟏".toList⟩] := by decide +kernel
  have hvalid : isValid (some (documentDialect document)) (some "h𝟏".toList) = .ok true :=
    isMarkup_eq_true_iff.2 ⟨by decide, .inr ⟨'h', _, _, rfl, by decide, by decide,
      tokenize_eq_ok_iff.1 htokens, parse_node _ none⟩⟩
  have hx : extract Scan.start? document ⟨0, 4⟩ (documentDialect document) = .ok (some found) := by
    refine extract_eq_some_iff.2 ⟨"😀h𝟏".toList, 1, by decide, ?_, by decide⟩
    exact extractFromLine_eq_some_iff.2 ⟨by decide, by decide, by decide, hvalid⟩
  obtain ⟨-, -, -, -, line, start, stop, hline, hscan, -, -, rfl, rfl, -, hsplit⟩ :=
    @extract_range _ _ _ none _ hx
  have hcursor : cursorLine document ⟨0, 4⟩ = some "😀h𝟏".toList := by decide
  rw [hcursor] at hline
  obtain rfl := Option.some.inj hline
  exact ⟨hx, hscan, by decide, by decide, hsplit⟩

end Shorthand.Abbreviation
