/-
Numerals: the decimal text of a number is read as that number (`number?_ofNat`), and numbers with
the same count of digits are in the order of their texts, whatever stands behind them
(`padded_append_lt`).
-/
import Mathlib.Algebra.Group.Nat.Defs
import Shorthand.Text.Basic

namespace Shorthand.Text

theorem toNat_of_isDigit {c : Char} (h : c.isDigit = true) : 48 ≤ c.toNat ∧ c.toNat ≤ 57 := by
  rw [Char.isDigit, Bool.and_eq_true, decide_eq_true_iff, decide_eq_true_iff] at h
  exact h

theorem isDecimal_of_isDigit {c : Char} (h : c.isDigit = true) : isDecimal c = true := by
  obtain ⟨hlow, hhigh⟩ := toNat_of_isDigit h
  rw [isDecimal, decimalDigits, Ranges.contains, if_neg (by omega), decide_eq_true hhigh, Bool.true_or]

theorem digitValue?_of_isDigit {c : Char} (h : c.isDigit = true) :
    digitValue? c = some (c.toNat - '0'.toNat) := by
  obtain ⟨hlow, hhigh⟩ := toNat_of_isDigit h
  have hoffset : decimalDigits.offset? c = some (c.toNat - 48) := by
    rw [decimalDigits, Ranges.offset?, if_neg (by omega), if_pos hhigh]
  have hsmall : (c.toNat - 48) % 10 = c.toNat - 48 := Nat.mod_eq_of_lt (by omega)
  rw [digitValue?, hoffset, Option.map_some, hsmall]
  rfl

/-- ASCII digits are read one after the other. -/
theorem foldlM_digitValue? {t : Text} (h : ∀ c ∈ t, c.isDigit = true) (n : Nat) :
    t.foldlM (fun n c => (digitValue? c).map (n * 10 + ·)) n = some (Nat.ofDigitChars 10 t n) := by
  induction t generalizing n with
  | nil => rfl
  | cons c t ih =>
    obtain ⟨hc, ht⟩ := List.forall_mem_cons.1 h
    rw [List.foldlM_cons, digitValue?_of_isDigit hc]
    show t.foldlM _ (n * 10 + (c.toNat - '0'.toNat)) = _
    rw [ih ht, Nat.mul_comm]
    rfl

theorem isDigit_of_mem_ofNat {n : Nat} {c : Char} (h : c ∈ ofNat n) : c.isDigit = true :=
  Nat.isDigit_of_mem_toDigits (by decide) (Nat.le_refl 10) h

theorem ofNat_ne_nil (n : Nat) : ofNat n ≠ [] := Nat.toDigits_ne_nil

theorem ofDigitChars_ofNat (n : Nat) : Nat.ofDigitChars 10 (ofNat n) 0 = n :=
  Nat.ofDigitChars_toDigits (by decide) (Nat.le_refl 10)

theorem ofNat_injective : Function.Injective ofNat :=
  Function.LeftInverse.injective (g := (Nat.ofDigitChars 10 · 0)) ofDigitChars_ofNat

/-- **A number is read from its decimal text**, unless it has too many digits. -/
theorem number?_ofNat {n : Nat} (h : n < 10 ^ maxNumberLength) : number? (ofNat n) = some n := by
  have hlength : (ofNat n).length ≤ maxNumberLength :=
    (Nat.length_toDigits_le_iff (by decide) (by decide)).2 h
  rw [number?, if_neg (by simp [ofNat_ne_nil, Nat.not_lt.2 hlength]),
    foldlM_digitValue? fun _ => isDigit_of_mem_ofNat, ofDigitChars_ofNat]

/-! ## The order of numerals -/

/-- What digits add to the number before them. -/
theorem ofDigitChars_bounds {t : Text} (h : ∀ c ∈ t, c.isDigit = true) (n : Nat) :
    n * 10 ^ t.length ≤ Nat.ofDigitChars 10 t n ∧ Nat.ofDigitChars 10 t n < (n + 1) * 10 ^ t.length := by
  induction t generalizing n with
  | nil => exact ⟨Nat.le_of_eq (Nat.mul_one n), Nat.lt_of_lt_of_eq (Nat.lt_succ_self n) (Nat.mul_one _).symm⟩
  | cons c t ih =>
    obtain ⟨hc, ht⟩ := List.forall_mem_cons.1 h
    obtain ⟨hlow, hhigh⟩ := toNat_of_isDigit hc
    obtain ⟨hle, hlt⟩ := ih ht (10 * n + (c.toNat - 48))
    rw [List.length_cons, Nat.pow_succ', ← Nat.mul_assoc, ← Nat.mul_assoc]
    refine ⟨Nat.le_trans (Nat.mul_le_mul_right _ ?_) hle, Nat.lt_of_lt_of_le hlt (Nat.mul_le_mul_right _ ?_)⟩
    · omega
    · omega

/-- Of two runs of digits of one length, that of the smaller number comes first. -/
theorem append_lt_of_ofDigitChars_lt {s t : Text} (hs : ∀ c ∈ s, c.isDigit = true)
    (ht : ∀ c ∈ t, c.isDigit = true) (hlength : s.length = t.length) {n : Nat}
    (h : Nat.ofDigitChars 10 s n < Nat.ofDigitChars 10 t n) (s' t' : Text) : s ++ s' < t ++ t' := by
  induction s generalizing t n with
  | nil =>
    rw [List.eq_nil_of_length_eq_zero hlength.symm] at h
    exact absurd h (Nat.lt_irrefl _)
  | cons a s ih =>
    cases t with
    | nil => cases hlength
    | cons b t =>
      obtain ⟨-, hs'⟩ := List.forall_mem_cons.1 hs
      obtain ⟨hb, ht'⟩ := List.forall_mem_cons.1 ht
      have hlength' : s.length = t.length := Nat.succ.inj hlength
      rw [List.cons_append, List.cons_append, List.cons_lt_cons_iff]
      rcases Nat.lt_trichotomy a.toNat b.toNat with hlt | heq | hgt
      · exact .inl hlt
      · obtain rfl := Char.toNat_inj.1 heq
        exact .inr ⟨rfl, ih hs' ht' hlength' h⟩
      · -- The first difference outweighs all the digits behind it.
        have hlow := (ofDigitChars_bounds hs' (10 * n + (a.toNat - 48))).1
        have hhigh := (ofDigitChars_bounds ht' (10 * n + (b.toNat - 48))).2
        have hvalue : 10 * n + (b.toNat - 48) + 1 ≤ 10 * n + (a.toNat - 48) := by
          have := toNat_of_isDigit hb
          omega
        rw [← hlength'] at hhigh
        exact absurd h (Nat.not_lt.2 (Nat.le_of_lt
          (Nat.lt_of_lt_of_le hhigh (Nat.le_trans (Nat.mul_le_mul_right _ hvalue) hlow))))

theorem isDigit_of_mem_padded {width n : Nat} {c : Char} (h : c ∈ padded width n) : c.isDigit = true := by
  rcases List.mem_append.1 h with hzero | hdigit
  · rw [List.eq_of_mem_replicate hzero]
    rfl
  · exact isDigit_of_mem_ofNat hdigit

theorem length_padded {width n : Nat} (hwidth : 0 < width) (h : n < 10 ^ width) : (padded width n).length = width := by
  have hlength : (ofNat n).length ≤ width := (Nat.length_toDigits_le_iff (by decide) hwidth).2 h
  rw [padded, List.length_append, List.length_replicate, Nat.sub_add_cancel hlength]

theorem ofDigitChars_padded (width n : Nat) : Nat.ofDigitChars 10 (padded width n) 0 = n := by
  have hzeros (k : Nat) : Nat.ofDigitChars 10 (List.replicate k '0') 0 = 0 := by
    induction k with
    | zero => rfl
    | succ k ih => exact ih
  rw [padded, Nat.ofDigitChars_append, hzeros, ofDigitChars_ofNat]

/-- **Padded numerals are in the order of their numbers**, as long as the numbers fit. -/
theorem padded_append_lt {width m n : Nat} (hwidth : 0 < width) (hmn : m < n) (hn : n < 10 ^ width) (s t : Text) :
    padded width m ++ s < padded width n ++ t := by
  refine append_lt_of_ofDigitChars_lt (n := 0) (fun _ => isDigit_of_mem_padded) (fun _ => isDigit_of_mem_padded) ?_ ?_ s t
  · rw [length_padded hwidth (Nat.lt_trans hmn hn), length_padded hwidth hn]
  · rwa [ofDigitChars_padded, ofDigitChars_padded]

end Shorthand.Text
