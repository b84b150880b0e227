/-
Runs: the longest beginning of a text whose characters are all of one class. A text is
cut into a run and what stands behind it in one way only.
-/
import Shorthand.Text.Class

namespace Shorthand.Text

variable {p : Char → Bool} {run rest : Text}

/-- A run of the class does not go on here. -/
def Stops (p : Char → Bool) (rest : Text) : Prop := ∀ c ∈ rest.head?, p c = false

/-- `run` is the longest run of the class that a text with `rest` behind it begins with. -/
structure Run (p : Char → Bool) (run rest : Text) : Prop where
  all : ∀ c ∈ run, p c = true
  stops : Stops p rest

theorem stops_nil (p : Char → Bool) : Stops p [] := by simp [Stops]

theorem stops_cons {c : Char} : Stops p (c :: rest) ↔ p c = false := by simp [Stops]

theorem run_takeWhile (p : Char → Bool) (t : Text) : Run p (t.takeWhile p) (t.dropWhile p) := by
  refine ⟨fun c hc => List.all_eq_true.1 List.all_takeWhile c hc, ?_⟩
  induction t with
  | nil => exact stops_nil p
  | cons c t ih =>
    rw [List.dropWhile_cons]
    split
    next => exact ih
    next h => exact stops_cons.2 (by simpa using h)

theorem Run.takeWhile_eq (h : Run p run rest) : (run ++ rest).takeWhile p = run := by
  rw [List.takeWhile_append_of_pos h.all]
  cases rest with
  | nil => simp
  | cons c rest => simp [stops_cons.1 h.stops]

theorem Run.dropWhile_eq (h : Run p run rest) : (run ++ rest).dropWhile p = rest := by
  rw [List.dropWhile_append_of_pos h.all]
  cases rest with
  | nil => rfl
  | cons c rest => simp [stops_cons.1 h.stops]

theorem Run.inj {run' rest' : Text} (h : Run p run rest) (h' : Run p run' rest')
    (heq : run ++ rest = run' ++ rest') : run = run' ∧ rest = rest' := by
  refine ⟨?_, ?_⟩
  · rw [← h.takeWhile_eq, heq, h'.takeWhile_eq]
  · rw [← h.dropWhile_eq, heq, h'.dropWhile_eq]

end Shorthand.Text
