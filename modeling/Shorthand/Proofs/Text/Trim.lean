/-
What trimming takes away: the blanks at both ends of a text. More blanks there make no difference,
and nothing is left exactly when there was nothing else.
-/
import Mathlib.Data.List.DropRight
import Shorthand.Proofs.Text.Run
import Shorthand.Text.Basic

namespace Shorthand.Text

/-- All white space. -/
def Blank (t : Text) : Prop := ∀ c ∈ t, isBlank c = true

variable {t ws : Text}

theorem not_mem_of_blank {c : Char} (hws : Blank ws) (hc : isBlank c = false) : c ∉ ws := by
  intro h
  rw [hws c h] at hc
  cases hc

theorem trimEnd_eq (t : Text) : trimEnd t = t.rdropWhile isBlank := rfl

theorem exists_trimStart (t : Text) : ∃ ws, Blank ws ∧ t = ws ++ trimStart t :=
  ⟨t.takeWhile isBlank, (run_takeWhile isBlank t).all, List.takeWhile_append_dropWhile.symm⟩

theorem exists_trimEnd (t : Text) : ∃ ws, Blank ws ∧ t = trimEnd t ++ ws :=
  ⟨t.rtakeWhile isBlank, fun _ => List.mem_rtakeWhile_imp, List.rdropWhile_append_rtakeWhile.symm⟩

theorem trimStart_blank_append (hws : Blank ws) (t : Text) : trimStart (ws ++ t) = trimStart t :=
  List.dropWhile_append_of_pos hws

theorem trimEnd_append_blank (hws : Blank ws) (t : Text) : trimEnd (t ++ ws) = trimEnd t := by
  have hreverse : ∀ c ∈ ws.reverse, isBlank c = true := fun c hc => hws c (List.mem_reverse.1 hc)
  rw [trimEnd, List.reverse_append, List.dropWhile_append_of_pos hreverse, trimEnd]

theorem trimStart_append {rest : Text} (h : ¬ Blank t) : trimStart (t ++ rest) = trimStart t ++ rest := by
  rw [trimStart, List.dropWhile_append, if_neg, trimStart]
  rw [List.isEmpty_iff, List.dropWhile_eq_nil_iff]
  exact h

theorem trim_blank_append (hws : Blank ws) (t : Text) : trim (ws ++ t) = trim t := by
  rw [trim, trimStart_blank_append hws, trim]

theorem trim_append_blank (hws : Blank ws) (t : Text) : trim (t ++ ws) = trim t := by
  by_cases h : Blank t
  · have hall : Blank (t ++ ws) := fun c hc => (List.mem_append.1 hc).elim (h c) (hws c)
    rw [trim, trim, trimStart, trimStart, List.dropWhile_eq_nil_iff.2 hall, List.dropWhile_eq_nil_iff.2 h]
  · rw [trim, trimStart_append h, trimEnd_append_blank hws, trim]

theorem trim_sublist (t : Text) : (trim t).Sublist t :=
  (List.rdropWhile_prefix isBlank _).sublist.trans (List.dropWhile_sublist isBlank)

/-- What trimming leaves as it is has no blanks at its start. -/
theorem trimStart_of_trim (h : trim t = t) : trimStart t = t := by
  have hle : t.length ≤ (trimStart t).length := calc
    t.length = (trim t).length := by rw [h]
    _ ≤ (trimStart t).length := (List.rdropWhile_prefix isBlank _).length_le
  have hsuffix : trimStart t <:+ t := List.dropWhile_suffix isBlank
  exact hsuffix.eq_of_length_le hle

theorem trim_trim (t : Text) : trim (trim t) = trim t := by
  obtain ⟨ws, hws, ht⟩ := exists_trimStart t
  obtain ⟨ws', hws', ht'⟩ := exists_trimEnd (trimStart t)
  have ht' : trimStart t = trim t ++ ws' := ht'
  calc trim (trim t)
    _ = trim (trim t ++ ws') := (trim_append_blank hws' _).symm
    _ = trim (ws ++ trimStart t) := by rw [← ht', trim_blank_append hws]
    _ = trim t := by rw [← ht]

theorem trim_eq_nil_iff : trim t = [] ↔ Blank t := by
  rw [trim, trimEnd_eq, List.rdropWhile_eq_nil_iff]
  constructor
  · intro h
    obtain ⟨ws, hws, ht⟩ := exists_trimStart t
    rw [ht]
    exact fun c hc => (List.mem_append.1 hc).elim (hws c) (h c)
  · intro h
    rw [trimStart, List.dropWhile_eq_nil_iff.2 h]
    exact nofun

end Shorthand.Text
