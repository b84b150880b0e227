/-
What an extraction reads of a document: the text before the cursor on its line, and
nothing else (`extract_eq_before`). The column counts only for where the range ends
(`extractBefore_endingAt`).
-/
import Shorthand.Proofs.Abbreviation.Place
import Shorthand.Proofs.Text.LineEnd

namespace Shorthand.Abbreviation

open Text (indexOfColumn columnOfIndex width)

/-- The text before the cursor on its line, without the terminator of the line. -/
def beforeCursor (document : Document) (position : Position) : Option Text :=
  (cursorLine document position).map fun line => line.take (indexOfColumn line position.column)

/-- What ends at the end of a text, found there for a position. -/
def extractBefore (scan : Scanner) (dialect before : Text) (position : Position) :
    Except UnreadableCount (Option Extracted) :=
  (extractFromLine scan dialect before (width before)).map <| Option.map fun (start, found) =>
    { abbreviation := found.abbreviation
      filters := found.filters
      range := ⟨⟨position.line, columnOfIndex before start⟩, position⟩ }

/-- The same abbreviation with the cursor at another column. -/
def Extracted.endingAt (e : Extracted) (position : Position) : Extracted :=
  { e with range := ⟨e.range.start, position⟩ }

/-- The line of a position as it is stored, with its terminator. -/
theorem exists_stored_line {document : Document} {position : Position} {line : Text}
    (h : cursorLine document position = some line) :
    ∃ ends, (Text.lines document.text)[position.line]? = some (line ++ ends) ∧
      ∀ c ∈ ends, Text.IsTerminator c := by
  obtain ⟨stored, hstored, rfl⟩ := Option.map_eq_some_iff.1 h
  obtain ⟨ends, hends, hall⟩ := Text.exists_terminator stored
  exact ⟨ends, hends ▸ hstored, hall⟩

variable {scan : Scanner} {dialect : Text} {document document' : Document} {position position' : Position}

theorem extractFromLine_before (line : Text) (column : Nat) :
    extractFromLine scan dialect line column =
      extractFromLine scan dialect (line.take (indexOfColumn line column))
        (width (line.take (indexOfColumn line column))) := by
  have hlength : (line.take (indexOfColumn line column)).length = indexOfColumn line column :=
    List.length_take_of_le (Text.indexOfColumn_le_length line column)
  have hstop : indexOfColumn (line.take (indexOfColumn line column))
      (width (line.take (indexOfColumn line column))) = indexOfColumn line column := by
    rw [Text.indexOfColumn_of_width_le (Nat.le_refl _), hlength]
  have hstart (family : Dialect.Family) :
      start? scan family (line.take (indexOfColumn line column)) (indexOfColumn line column : Nat) =
        start? scan family line (indexOfColumn line column : Nat) := by
    simp only [start?, Text.upTo, List.take_take, Nat.min_self]
  simp only [extractFromLine, hstop, hstart, List.take_take, Nat.min_self]

/-- An extraction reads the text before the cursor. -/
theorem extract_eq_before {before : Text} (h : beforeCursor document position = some before) :
    extract scan document position dialect = extractBefore scan dialect before position := by
  obtain ⟨line, hline, rfl⟩ := Option.map_eq_some_iff.1 h
  obtain ⟨raw, hraw, rfl⟩ := Option.map_eq_some_iff.1 hline
  rw [extract, hraw, extractBefore, ← extractFromLine_before]
  cases hfound : extractFromLine scan dialect (Text.withoutTerminator raw) position.column with
  | error why => simp only [hfound, Except.map]
  | ok result =>
    cases result with
    | none => simp only [hfound, Except.map, Option.map_none]
    | some found =>
      have hlt := (extractFromLine_eq_some_iff.1 hfound).2.1
      simp only [hfound, Except.map, Option.map_some, Text.columnOfIndex_take (Nat.le_of_lt hlt)]

theorem extractBefore_endingAt (before : Text) (h : position.line = position'.line) :
    extractBefore scan dialect before position' =
      (extractBefore scan dialect before position).map (Option.map (·.endingAt position')) := by
  rw [extractBefore, extractBefore]
  cases extractFromLine scan dialect before (width before) with
  | error why => rfl
  | ok result =>
    cases result with
    | none => rfl
    | some found => simp only [Except.map, Option.map_some, Extracted.endingAt, h]

/-- An abbreviation holds something, and no white space ends it. -/
theorem getLast?_abbreviation {t : Text} {found : Filtered} (h : Filtered.ofText? t = some found) :
    ∃ c, found.abbreviation.getLast? = some c ∧ Text.isBlank c = false := by
  rw [Filtered.ofText?, Option.ite_none_left_eq_some, Option.some.injEq, List.isEmpty_iff] at h
  obtain ⟨hne, rfl⟩ := h
  exact ⟨_, List.getLast?_eq_some_getLast hne, Text.getLast_trim hne⟩

end Shorthand.Abbreviation
