/-
The code units of UTF-16, in which an editor counts. A character above U+FFFF is a pair of
surrogates, any other one unit. The column of an index is the number of code units before it, and
`columnOfIndex` and `indexOfColumn` determine each other (`columns_correspond`).
-/
import Mathlib.Data.Nat.Basic
import Mathlib.Order.Interval.Set.Defs
import Mathlib.Order.Monotone.Defs
import Shorthand.Proofs.Text.Column

namespace Shorthand.Text

/-- The code units of a character. -/
def codeUnits (c : Char) : List UInt16 :=
  if c.toNat > 0xFFFF then
    [(0xD800 + (c.toNat - 0x10000) / 0x400).toUInt16, (0xDC00 + (c.toNat - 0x10000) % 0x400).toUInt16]
  else [c.toNat.toUInt16]

/-- A text in UTF-16. -/
def utf16 (t : Text) : List UInt16 := t.flatMap codeUnits

/-- The second unit of a pair of surrogates. -/
def IsTrailing (u : UInt16) : Prop := 0xDC00 ≤ u.toNat ∧ u.toNat ≤ 0xDFFF

instance (u : UInt16) : Decidable (IsTrailing u) := inferInstanceAs (Decidable (_ ∧ _))

theorem length_codeUnits (c : Char) : (codeUnits c).length = units c := by
  rw [codeUnits, units]
  split <;> rfl

theorem length_utf16 (t : Text) : (utf16 t).length = width t := by
  induction t with
  | nil => rfl
  | cons c t ih => rw [utf16, List.flatMap_cons, List.length_append, length_codeUnits, ← utf16, ih, width]

/-- The column of an index is the length of what stands before it, in UTF-16. -/
theorem columnOfIndex_eq_length (line : Text) (index : Nat) :
    columnOfIndex line index = (utf16 (line.take index)).length := (length_utf16 _).symm

/-! ## Inside a pair of surrogates -/

/-- The units of a character are told apart: only the second of two is a trailing one. -/
theorem isTrailing_codeUnits {c : Char} {column : Nat} {u : UInt16} (hu : (codeUnits c)[column]? = some u)
    (htrailing : IsTrailing u) : column = 1 ∧ units c = 2 := by
  have hvalid := c.valid
  have hcode : c.toNat = c.val.toNat := rfl
  simp only [UInt32.isValidChar, Nat.isValidChar] at hvalid
  rw [codeUnits] at hu
  rw [units]
  split at hu
  next hpair =>
    rw [if_pos hpair]
    rcases column with _ | _ | column
    · -- The first of two is below the trailing ones.
      rw [List.getElem?_cons_zero, Option.some.injEq] at hu
      subst hu
      simp only [IsTrailing, Nat.toUInt16_eq, UInt16.toNat_ofNat'] at htrailing
      omega
    · exact ⟨rfl, rfl⟩
    · cases hu
  next =>
    rcases column with _ | column
    · -- No character has the code of a surrogate.
      rw [List.getElem?_cons_zero, Option.some.injEq] at hu
      subst hu
      simp only [IsTrailing, Nat.toUInt16_eq, UInt16.toNat_ofNat'] at htrailing
      omega
    · cases hu

/-- A column before a trailing surrogate is inside a character. -/
theorem exists_index_of_isTrailing {line : Text} {column : Nat} {u : UInt16}
    (hu : (utf16 line)[column]? = some u) (htrailing : IsTrailing u) :
    ∃ index < line.length, columnOfIndex line index + 1 = column ∧
      columnOfIndex line (index + 1) = column + 1 := by
  induction line generalizing column with
  | nil => cases hu
  | cons c rest ih =>
    rw [utf16, List.flatMap_cons, ← utf16] at hu
    by_cases hc : column < (codeUnits c).length
    · rw [List.getElem?_append_left hc] at hu
      obtain ⟨rfl, hunits⟩ := isTrailing_codeUnits hu htrailing
      refine ⟨0, Nat.succ_pos _, rfl, ?_⟩
      rw [columnOfIndex_cons, hunits]
      rfl
    · rw [List.getElem?_append_right (Nat.le_of_not_lt hc)] at hu
      rw [length_codeUnits] at hc hu
      obtain ⟨index, hi, hstart, hstop⟩ := ih hu
      refine ⟨index + 1, Nat.succ_lt_succ hi, ?_, ?_⟩ <;> rw [columnOfIndex_cons] <;> omega

/-! ## Columns and indices -/

theorem columnOfIndex_strictMonoOn (line : Text) : StrictMonoOn (columnOfIndex line) (Set.Iic line.length) := by
  intro index _ later hlater hlt
  have hback : indexOfColumn line (columnOfIndex line later) = later := indexOfColumn_columnOfIndex hlater
  exact (lt_indexOfColumn_iff _ (Nat.lt_of_lt_of_le hlt hlater)).1 (hback.symm ▸ hlt)

theorem indexOfColumn_le_iff {line : Text} {index column : Nat} (hcolumn : column ≤ width line)
    (hi : index ≤ line.length) : indexOfColumn line column ≤ index ↔ column ≤ columnOfIndex line index := by
  rcases Nat.lt_or_eq_of_le hi with hlt | rfl
  · rw [← Nat.not_lt, lt_indexOfColumn_iff column hlt, Nat.not_lt]
  · rw [columnOfIndex, List.take_length]
    exact iff_of_true (indexOfColumn_le_length line column) hcolumn

/-- **Columns and indices of a line determine each other.** The column of an index is the number of
code units before it, and grows with the index. The index of a column is the first whose column is not
before it; past the end it is the length of the line. So an index comes back from its column, and a
column inside a pair of surrogates goes to the index behind their character. -/
theorem columns_correspond (line : Text) :
    (∀ index, columnOfIndex line index = (utf16 (line.take index)).length) ∧
    StrictMonoOn (columnOfIndex line) (Set.Iic line.length) ∧
    (∀ index column, index ≤ line.length → column ≤ (utf16 line).length →
      (indexOfColumn line column ≤ index ↔ column ≤ columnOfIndex line index)) ∧
    (∀ column, (utf16 line).length < column → indexOfColumn line column = line.length) ∧
    (∀ index ≤ line.length, indexOfColumn line (columnOfIndex line index) = index) ∧
    ∀ column u, (utf16 line)[column]? = some u → IsTrailing u →
      ∃ index < line.length, columnOfIndex line index + 1 = column ∧
        indexOfColumn line column = index + 1 := by
  refine ⟨columnOfIndex_eq_length line, columnOfIndex_strictMonoOn line, fun index column hi hcolumn => ?_,
    fun column hcolumn => ?_, fun index => indexOfColumn_columnOfIndex, fun column u hu htrailing => ?_⟩
  · rw [length_utf16] at hcolumn
    exact indexOfColumn_le_iff hcolumn hi
  · rw [length_utf16] at hcolumn
    exact indexOfColumn_of_width_le (Nat.le_of_lt hcolumn)
  · obtain ⟨index, hi, hstart, hstop⟩ := exists_index_of_isTrailing hu htrailing
    refine ⟨index, hi, hstart, ?_⟩
    have hafter : index < indexOfColumn line column := (lt_indexOfColumn_iff column hi).2 (hstart ▸ Nat.lt_succ_self _)
    have hcolumn : column ≤ width line := by
      have := columnOfIndex_le_width line (index + 1)
      omega
    have hbefore : indexOfColumn line column ≤ index + 1 := (indexOfColumn_le_iff hcolumn hi).2 (hstop ▸ Nat.le_succ _)
    exact Nat.le_antisymm hbefore hafter

/-- A line with a pair of surrogates between two letters. -/
theorem columns_correspond_emoji :
    let line := "a😀b".toList
    columnOfIndex line 1 < columnOfIndex line 2 ∧
    (indexOfColumn line 2 ≤ 1 ↔ 2 ≤ columnOfIndex line 1) ∧
    indexOfColumn line 5 = 3 ∧
    indexOfColumn line (columnOfIndex line 2) = 2 ∧
    (utf16 line)[2]? = some 0xDE00 ∧ IsTrailing 0xDE00 ∧
    ∃ index < 3, columnOfIndex line index + 1 = 2 ∧ indexOfColumn line 2 = index + 1 := by
  intro line
  obtain ⟨-, hgrows, hiff, hend, hback, hpair⟩ := columns_correspond line
  have hunit : (utf16 line)[2]? = some 0xDE00 := by decide
  exact ⟨hgrows (Set.mem_Iic.2 (by decide)) (Set.mem_Iic.2 (by decide)) (by decide), hiff 1 2 (by decide) (by decide),
    hend 5 (by decide), hback 2 (by decide), hunit, by decide, hpair 2 _ hunit (by decide)⟩

end Shorthand.Text
