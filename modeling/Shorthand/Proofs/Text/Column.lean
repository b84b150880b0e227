/-
Columns and indices of a line. `columnOfIndex` and `indexOfColumn` are counted in
opposite directions, and `lt_indexOfColumn_iff` ties them together: a character begins
before a column exactly when its index comes before that of the column. So an index
comes back from its column, and the slice between the indices of two columns holds the
characters that begin between these (`slice_eq_between`). What follows a column on its line
has no part in its index (`indexOfColumn_append`).
-/
import Shorthand.Text.Utf16

namespace Shorthand.Text

theorem units_pos (c : Char) : 0 < units c := by
  rw [units]
  split <;> decide

theorem indexOfColumn_zero (line : Text) : indexOfColumn line 0 = 0 := by
  cases line <;> rfl

theorem indexOfColumn_cons {column : Nat} (c : Char) (rest : Text) (h : 0 < column) :
    indexOfColumn (c :: rest) column = indexOfColumn rest (column - units c) + 1 := by
  cases column with
  | zero => exact absurd h (Nat.lt_irrefl 0)
  | succ column => rfl

theorem columnOfIndex_cons (c : Char) (rest : Text) (index : Nat) :
    columnOfIndex (c :: rest) (index + 1) = units c + columnOfIndex rest index := rfl

theorem indexOfColumn_le_length (line : Text) (column : Nat) :
    indexOfColumn line column ≤ line.length := by
  induction line generalizing column with
  | nil => exact Nat.le_refl 0
  | cons c rest ih =>
    rcases Nat.eq_zero_or_pos column with rfl | h
    · exact Nat.zero_le _
    · rw [indexOfColumn_cons c rest h]
      exact Nat.succ_le_succ (ih _)

/-- A character begins before a column exactly when its index is before that of the
column. -/
theorem lt_indexOfColumn_iff {line : Text} {index : Nat} (column : Nat) (hi : index < line.length) :
    index < indexOfColumn line column ↔ columnOfIndex line index < column := by
  induction line generalizing index column with
  | nil => exact absurd hi (Nat.not_lt_zero index)
  | cons c rest ih =>
    rcases Nat.eq_zero_or_pos column with rfl | h
    · rw [indexOfColumn_zero]
      exact ⟨fun hlt => absurd hlt (Nat.not_lt_zero _), fun hlt => absurd hlt (Nat.not_lt_zero _)⟩
    · rw [indexOfColumn_cons c rest h]
      cases index with
      | zero => exact ⟨fun _ => h, fun _ => Nat.succ_pos _⟩
      | succ index =>
        have hrest := ih (column - units c) (Nat.lt_of_succ_lt_succ hi)
        rw [columnOfIndex_cons, Nat.succ_lt_succ_iff, hrest]
        omega

/-- An index comes back from the column at which its character begins. -/
theorem indexOfColumn_columnOfIndex {line : Text} {index : Nat} (hi : index ≤ line.length) :
    indexOfColumn line (columnOfIndex line index) = index := by
  induction line generalizing index with
  | nil => exact (Nat.le_zero.1 hi).symm
  | cons c rest ih =>
    cases index with
    | zero => exact indexOfColumn_zero _
    | succ index =>
      have hpos := units_pos c
      rw [columnOfIndex_cons, indexOfColumn_cons c rest (by omega), Nat.add_sub_cancel_left,
        ih (Nat.le_of_succ_le_succ hi)]

/-! ## What follows a column -/

theorem indexOfColumn_of_width_le {line : Text} {column : Nat} (h : width line ≤ column) :
    indexOfColumn line column = line.length := by
  induction line generalizing column with
  | nil => rfl
  | cons c rest ih =>
    have hpos := units_pos c
    have hwidth : units c + width rest ≤ column := h
    rw [indexOfColumn_cons c rest (by omega), ih (by omega), List.length_cons]

theorem columnOfIndex_le_width (line : Text) (index : Nat) : columnOfIndex line index ≤ width line := by
  induction line generalizing index with
  | nil => exact Nat.le_of_eq (congrArg width List.take_nil)
  | cons c rest ih =>
    cases index with
    | zero => exact Nat.zero_le _
    | succ index => exact Nat.add_le_add_left (ih index) (units c)

theorem indexOfColumn_append {line : Text} {column : Nat} (more : Text) (h : column ≤ width line) :
    indexOfColumn (line ++ more) column = indexOfColumn line column := by
  induction line generalizing column with
  | nil =>
    obtain rfl := Nat.le_zero.1 h
    exact indexOfColumn_zero more
  | cons c rest ih =>
    rcases Nat.eq_zero_or_pos column with rfl | hpos
    · rfl
    · have hwidth : column ≤ units c + width rest := h
      rw [List.cons_append, indexOfColumn_cons c _ hpos, indexOfColumn_cons c rest hpos, ih (by omega)]

/-- A column within a line is reached by the text before its index. -/
theorem le_columnOfIndex {line : Text} {column : Nat} (h : column ≤ width line) :
    column ≤ columnOfIndex line (indexOfColumn line column) := by
  by_cases hi : indexOfColumn line column < line.length
  · exact Nat.le_of_not_lt fun hlt => Nat.lt_irrefl _ ((lt_indexOfColumn_iff column hi).2 hlt)
  · rwa [columnOfIndex, List.take_of_length_le (Nat.le_of_not_lt hi)]

/-- Lines that agree up to the index of a column of one of them have the same index there. -/
theorem indexOfColumn_congr {line line' : Text} {column : Nat} (h : column ≤ width line)
    (hsame : line.take (indexOfColumn line column) = line'.take (indexOfColumn line column)) :
    indexOfColumn line' column = indexOfColumn line column := by
  have hreach : column ≤ width (line.take (indexOfColumn line column)) := le_columnOfIndex h
  calc indexOfColumn line' column
    _ = indexOfColumn (line.take (indexOfColumn line column) ++ line'.drop (indexOfColumn line column)) column := by
        rw [hsame, List.take_append_drop]
    _ = indexOfColumn (line.take (indexOfColumn line column) ++ line.drop (indexOfColumn line column)) column := by
        rw [indexOfColumn_append _ hreach, indexOfColumn_append _ hreach]
    _ = indexOfColumn line column := by rw [List.take_append_drop]

theorem columnOfIndex_take {line : Text} {index stop : Nat} (h : index ≤ stop) :
    columnOfIndex (line.take stop) index = columnOfIndex line index := by
  rw [columnOfIndex, columnOfIndex, List.take_take, Nat.min_eq_left h]

/-! ## Between two columns -/

/-- The characters of a text that begin in the columns from `start` on and before `stop`,
`column` being the one at which the text begins. -/
def between (start stop : Nat) : (column : Nat) → Text → Text
  | _, [] => []
  | column, c :: rest =>
    if start ≤ column ∧ column < stop then c :: between start stop (column + units c) rest
    else between start stop (column + units c) rest

theorem between_eq (start stop column : Nat) (t : Text) :
    between start stop column t =
      (t.take (indexOfColumn t (stop - column))).drop (indexOfColumn t (start - column)) := by
  induction t generalizing column with
  | nil => rw [between, List.take_nil, List.drop_nil]
  | cons c rest ih =>
    have hafter (n : Nat) : n - (column + units c) = n - column - units c := by omega
    rw [between, ih, hafter, hafter]
    by_cases hstop : column < stop
    · have hpos : 0 < stop - column := by omega
      rw [indexOfColumn_cons c rest hpos, List.take_succ_cons]
      by_cases hstart : start ≤ column
      · rw [if_pos ⟨hstart, hstop⟩, Nat.sub_eq_zero_of_le hstart, Nat.zero_sub, indexOfColumn_zero,
          indexOfColumn_zero, List.drop_zero, List.drop_zero]
      · have hafter : 0 < start - column := by omega
        rw [if_neg fun h => hstart h.1, indexOfColumn_cons c rest hafter, List.drop_succ_cons]
    · rw [if_neg fun h => hstop h.2, Nat.sub_eq_zero_of_le (Nat.le_of_not_lt hstop), Nat.zero_sub,
        indexOfColumn_zero, indexOfColumn_zero, List.take_zero, List.take_zero, List.drop_nil, List.drop_nil]

/-- The slice of a line between the indices of two columns. -/
theorem slice_eq_between (line : Text) (start stop : Nat) :
    (line.take (indexOfColumn line stop)).drop (indexOfColumn line start) = between start stop 0 line := by
  rw [between_eq]
  rfl

end Shorthand.Text
