/-
The end of a line: its terminator, which `withoutTerminator` takes away, and the column at
which the text before it ends. An index past that column has some of the terminator
before it, and what is trimmed never ends in one.
-/
import Mathlib.Data.List.DropRight
import Shorthand.Proofs.Text.Column
import Shorthand.Text.Basic
import Shorthand.Text.Lines

namespace Shorthand.Text

/-- A character of the terminators that are taken from a line. -/
def IsTerminator (c : Char) : Prop := c = '\r' ∨ c = '\n'

theorem IsTerminator.blank {c : Char} (h : IsTerminator c) : isBlank c = true := by
  rcases h with rfl | rfl <;> decide

/-- A line is what is left without its terminator, and then the terminator. -/
theorem exists_terminator (line : Text) :
    ∃ ends, line = withoutTerminator line ++ ends ∧ ∀ c ∈ ends, IsTerminator c := by
  refine ⟨line.rtakeWhile fun c => c == '\r' || c == '\n', ?_, fun c hc => ?_⟩
  · exact List.rdropWhile_append_rtakeWhile.symm
  · have hc := List.mem_rtakeWhile_imp hc
    rwa [Bool.or_eq_true, beq_iff_eq, beq_iff_eq] at hc

theorem getLast_trim {t : Text} (h : trim t ≠ []) : isBlank ((trim t).getLast h) = false :=
  Bool.not_eq_true _ ▸ List.rdropWhile_last_not isBlank (trimStart t) h

/-- Before a column past the end of a line stands some of what follows the line. -/
theorem take_indexOfColumn_append {line ends : Text} {column : Nat} (h : width line < column)
    (hne : ends ≠ []) :
    ∃ more, more ≠ [] ∧ more <+: ends ∧
      (line ++ ends).take (indexOfColumn (line ++ ends) column) = line ++ more := by
  have hlength : line.length < (line ++ ends).length := by
    rw [List.length_append]
    exact Nat.lt_add_of_pos_right (List.length_pos_iff.2 hne)
  have hwidth : columnOfIndex (line ++ ends) line.length < column := by
    rwa [columnOfIndex, List.take_left]
  have hpast := (lt_indexOfColumn_iff column hlength).2 hwidth
  refine ⟨ends.take (indexOfColumn (line ++ ends) column - line.length), ?_, List.take_prefix _ _, ?_⟩
  · rw [Ne, List.take_eq_nil_iff, not_or]
    exact ⟨by omega, hne⟩
  · rw [List.take_append, List.take_of_length_le (Nat.le_of_lt hpast)]

end Shorthand.Text
