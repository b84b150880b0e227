/-
Blocks as a grammar. What stands between the brackets of a block is a run of plain
characters, escaped characters, strings (in attributes only) and blocks of the same
kind; `closing?_eq_some_iff` says that the bracket that is found to close a block is the
first one behind such a run.
-/
import Shorthand.Abbreviation.Bracket

namespace Shorthand.Abbreviation.Bracket

/-- What stands in a string before the quote that ends it. -/
inductive StringBody (quote : Char) : Text → Prop
  | nil : StringBody quote []
  | escape (c : Char) {rest : Text} : StringBody quote rest → StringBody quote ('\\' :: c :: rest)
  | char {c : Char} {rest : Text} :
    c ≠ '\\' → c ≠ quote → StringBody quote rest → StringBody quote (c :: rest)

/-- A character that means nothing special in a block. -/
def IsPlain (b : Bracket) (c : Char) : Prop :=
  c ≠ '\\' ∧ b.opensQuote c = false ∧ c ≠ b.opening ∧ c ≠ b.closing

/-- What stands in a block before the bracket that closes it. -/
inductive Body (b : Bracket) : Text → Prop
  | nil : Body b []
  | escape (c : Char) {rest : Text} : Body b rest → Body b ('\\' :: c :: rest)
  | string {quote : Char} {inside rest : Text} :
    b.opensQuote quote = true → StringBody quote inside → Body b rest →
      Body b (quote :: (inside ++ quote :: rest))
  | nested {inside rest : Text} :
    Body b inside → Body b rest → Body b (b.opening :: (inside ++ b.closing :: rest))
  | plain {c : Char} {rest : Text} : b.IsPlain c → Body b rest → Body b (c :: rest)

/-! ## One step of the search -/

variable {b : Bracket} {depth : Nat} {quote : Option Char}

theorem opening_ne_escape (b : Bracket) : b.opening ≠ '\\' := by
  cases b <;> decide

theorem closing_ne_escape (b : Bracket) : b.closing ≠ '\\' := by
  cases b <;> decide

theorem closing_ne_opening (b : Bracket) : b.closing ≠ b.opening := by
  cases b <;> decide

theorem opensQuote_opening (b : Bracket) : b.opensQuote b.opening = false := by
  cases b <;> decide

theorem opensQuote_closing (b : Bracket) : b.opensQuote b.closing = false := by
  cases b <;> decide

theorem ne_escape_of_opensQuote {c : Char} (h : b.opensQuote c = true) : c ≠ '\\' := by
  rintro rfl
  cases b <;> simp [opensQuote] at h

theorem closingFrom_escape (c : Char) (rest : Text) :
    b.closingFrom depth quote ('\\' :: c :: rest) = (b.closingFrom depth quote rest).map (· + 2) := by
  rw [closingFrom]

theorem closingFrom_some {q c : Char} (rest : Text) (hc : c ≠ '\\') :
    b.closingFrom depth (some q) (c :: rest) =
      (b.closingFrom depth (if c = q then none else some q) rest).map (· + 1) := by
  rw [closingFrom]
  · intro h
    exact absurd h hc
  · intro d more h
    exact absurd h hc

theorem closingFrom_none {c : Char} (rest : Text) (hc : c ≠ '\\') :
    b.closingFrom depth none (c :: rest) =
      if b.opensQuote c then (b.closingFrom depth (some c) rest).map (· + 1)
      else if c = b.opening then (b.closingFrom (depth + 1) none rest).map (· + 1)
      else if c = b.closing then
        if depth = 1 then some 0 else (b.closingFrom (depth - 1) none rest).map (· + 1)
      else (b.closingFrom depth none rest).map (· + 1) := by
  rw [closingFrom]
  · intro h
    exact absurd h hc
  · intro d more h
    exact absurd h hc

theorem closingFrom_quote {c : Char} (rest : Text) (h : b.opensQuote c = true) :
    b.closingFrom depth none (c :: rest) = (b.closingFrom depth (some c) rest).map (· + 1) := by
  rw [closingFrom_none rest (ne_escape_of_opensQuote h), if_pos h]

theorem closingFrom_opening (rest : Text) :
    b.closingFrom depth none (b.opening :: rest) =
      (b.closingFrom (depth + 1) none rest).map (· + 1) := by
  rw [closingFrom_none rest b.opening_ne_escape]
  simp [opensQuote_opening]

theorem closingFrom_closing (rest : Text) :
    b.closingFrom (depth + 1) none (b.closing :: rest) =
      if depth = 0 then some 0 else (b.closingFrom depth none rest).map (· + 1) := by
  rw [closingFrom_none rest b.closing_ne_escape]
  simp [opensQuote_closing, closing_ne_opening]

theorem closingFrom_plain {c : Char} (rest : Text) (h : b.IsPlain c) :
    b.closingFrom depth none (c :: rest) = (b.closingFrom depth none rest).map (· + 1) := by
  obtain ⟨hc, hquote, hopening, hclosing⟩ := h
  rw [closingFrom_none rest hc]
  simp [hquote, hopening, hclosing]

/-! ## A block is searched to its end -/

theorem closingFrom_string {q : Char} {inside : Text} (h : StringBody q inside) (hq : q ≠ '\\')
    (rest : Text) :
    b.closingFrom depth (some q) (inside ++ q :: rest) =
      (b.closingFrom depth none rest).map (· + (inside.length + 1)) := by
  induction h with
  | nil => simp [closingFrom_some rest hq]
  | escape c _ ih =>
    simp only [List.cons_append, closingFrom_escape, ih, Option.map_map, List.length_cons]
    rfl
  | char hc hne _ ih =>
    simp only [List.cons_append, closingFrom_some _ hc, if_neg hne, ih, Option.map_map, List.length_cons]
    rfl

theorem closingFrom_body {inside : Text} (h : b.Body inside) (depth : Nat) (rest : Text) :
    b.closingFrom (depth + 1) none (inside ++ rest) =
      (b.closingFrom (depth + 1) none rest).map (· + inside.length) := by
  induction h generalizing depth rest with
  | nil => simp
  | escape c _ ih =>
    simp only [List.cons_append, closingFrom_escape, ih, Option.map_map, List.length_cons]
    rfl
  | string hquote hinside _ ih =>
    simp only [List.cons_append, List.append_assoc, closingFrom_quote _ hquote,
      closingFrom_string hinside (ne_escape_of_opensQuote hquote), ih, Option.map_map]
    congr 1
    funext n
    simp
    omega
  | nested _ _ ihinside ihrest =>
    simp only [List.cons_append, List.append_assoc, closingFrom_opening, ihinside, closingFrom_closing,
      ihrest, Nat.add_one_ne_zero, if_false, Option.map_map]
    congr 1
    funext n
    simp
    omega
  | plain hplain _ ih =>
    simp only [List.cons_append, closingFrom_plain _ hplain, ih, Option.map_map, List.length_cons]
    rfl

/-! ## Whatever is found closes a block -/

theorem exists_stringBody {q : Char} (t : Text) (h : (b.closingFrom depth (some q) t).isSome) :
    ∃ inside rest, t = inside ++ q :: rest ∧ StringBody q inside := by
  match t with
  | [] => simp [closingFrom] at h
  | c :: rest =>
    by_cases hc : c = '\\'
    · subst hc
      match rest with
      | [] => simp [closingFrom] at h
      | c :: rest =>
        rw [closingFrom_escape, Option.isSome_map] at h
        obtain ⟨inside, left, rfl, hinside⟩ := exists_stringBody rest h
        exact ⟨'\\' :: c :: inside, left, rfl, .escape c hinside⟩
    · rw [closingFrom_some rest hc, Option.isSome_map] at h
      by_cases hq : c = q
      · subst hq
        exact ⟨[], rest, rfl, .nil⟩
      · rw [if_neg hq] at h
        obtain ⟨inside, left, rfl, hinside⟩ := exists_stringBody rest h
        exact ⟨c :: inside, left, rfl, .char hc hq hinside⟩

/-- The induction is on the length of the text: what stands behind a block in the block
is no direct part of it. -/
theorem exists_body {t : Text} (h : (b.closingFrom (depth + 1) none t).isSome) :
    ∃ inside rest, t = inside ++ b.closing :: rest ∧ b.Body inside := by
  induction hn : t.length using Nat.strongRecOn generalizing t depth with
  | _ n ih =>
  subst hn
  match t with
  | [] => simp [closingFrom] at h
  | c :: rest =>
    by_cases hc : c = '\\'
    · subst hc
      cases rest with
      | nil => simp [closingFrom] at h
      | cons c rest =>
        rw [closingFrom_escape, Option.isSome_map] at h
        have hlt : rest.length < ('\\' :: c :: rest).length := by
          rw [List.length_cons, List.length_cons]
          omega
        obtain ⟨inside, left, rfl, hinside⟩ := ih _ hlt h rfl
        exact ⟨'\\' :: c :: inside, left, rfl, .escape c hinside⟩
    · by_cases hquote : b.opensQuote c = true
      · rw [closingFrom_quote rest hquote, Option.isSome_map] at h
        obtain ⟨string, behind, rfl, hstring⟩ := exists_stringBody rest h
        rw [closingFrom_string hstring hc, Option.isSome_map] at h
        have hlt : behind.length < (c :: (string ++ c :: behind)).length := by
          rw [List.length_cons, List.length_append, List.length_cons]
          omega
        obtain ⟨inside, left, rfl, hinside⟩ := ih _ hlt h rfl
        exact ⟨c :: (string ++ c :: inside), left, by simp, .string hquote hstring hinside⟩
      · by_cases hopening : c = b.opening
        · subst hopening
          rw [closingFrom_opening, Option.isSome_map] at h
          obtain ⟨inner, behind, rfl, hinner⟩ := ih _ (by simp) h rfl
          rw [closingFrom_body hinner, closingFrom_closing, if_neg (Nat.succ_ne_zero depth),
            Option.isSome_map, Option.isSome_map] at h
          have hlt : behind.length < (b.opening :: (inner ++ b.closing :: behind)).length := by
            rw [List.length_cons, List.length_append, List.length_cons]
            omega
          obtain ⟨inside, left, rfl, hinside⟩ := ih _ hlt h rfl
          exact ⟨b.opening :: (inner ++ b.closing :: inside), left, by simp, .nested hinner hinside⟩
        · by_cases hclosing : c = b.closing
          · subst hclosing
            exact ⟨[], rest, rfl, .nil⟩
          · have hplain : b.IsPlain c := ⟨hc, by simpa using hquote, hopening, hclosing⟩
            rw [closingFrom_plain rest hplain, Option.isSome_map] at h
            obtain ⟨inside, left, rfl, hinside⟩ := ih _ (by simp) h rfl
            exact ⟨c :: inside, left, rfl, .plain hplain hinside⟩

theorem closing?_body {inside : Text} (h : b.Body inside) (rest : Text) :
    b.closing? (b.opening :: (inside ++ b.closing :: rest)) = some (inside.length + 1) := by
  rw [closing?, closingFrom_opening, closingFrom_body h, closingFrom_closing]
  simp

/-- The bracket that closes a block is the first one behind what may stand in the block. -/
theorem closing?_eq_some_iff {t : Text} {n : Nat} :
    b.closing? (b.opening :: t) = some n ↔
      ∃ inside rest, t = inside ++ b.closing :: rest ∧ b.Body inside ∧ n = inside.length + 1 := by
  constructor
  · intro h
    have hsome : (b.closingFrom (0 + 1) none t).isSome := by
      rw [closing?, closingFrom_opening] at h
      cases hc : b.closingFrom (0 + 1) none t with
      | none => simp [hc] at h
      | some m => rfl
    obtain ⟨inside, rest, rfl, hbody⟩ := exists_body hsome
    rw [closing?_body hbody, Option.some.injEq] at h
    exact ⟨inside, rest, rfl, hbody, h.symm⟩
  · rintro ⟨inside, rest, rfl, hbody, rfl⟩
    exact closing?_body hbody rest

/-- A block ends in one place only. -/
theorem Body.inj {inside inside' rest rest' : Text} (h : b.Body inside) (h' : b.Body inside')
    (heq : inside ++ b.closing :: rest = inside' ++ b.closing :: rest') :
    inside = inside' ∧ rest = rest' := by
  have hn := closing?_body h rest
  rw [heq, closing?_body h', Option.some.injEq] at hn
  have hsplit := List.append_inj heq (by omega)
  exact ⟨hsplit.1, (List.cons.inj hsplit.2).2⟩

end Shorthand.Abbreviation.Bracket
