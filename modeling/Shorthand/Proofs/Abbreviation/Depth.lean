/-
How deep the brackets of a block nest, said of what is read up to a position: the brackets opened less
those closed, without the characters that a backslash takes and without the strings of attributes. By
`closing?_isLeast` a block is closed at the first position at which that is zero again.
-/
import Mathlib.Data.Nat.Find
import Mathlib.Order.Bounds.Image
import Shorthand.Proofs.Abbreviation.Piece
import Shorthand.Proofs.Abbreviation.Span

namespace Shorthand.Abbreviation.Bracket

/-- What is behind the first quote that ends a string; nothing where the string has no end. -/
def afterString (quote : Char) (read : List Sign) : List Sign :=
  (read.dropWhile (· != .bare quote)).tail

theorem length_afterString_le (quote : Char) (read : List Sign) :
    (afterString quote read).length ≤ read.length := by
  rw [afterString, List.length_tail]
  exact (Nat.sub_le _ 1).trans (List.dropWhile_sublist _).length_le

/-- The characters that count in a block: none that a backslash takes, and none of a string. -/
def counted (b : Bracket) : List Sign → Text
  | [] => []
  | .escaped _ :: read => counted b read
  | .bare c :: read => if b.opensQuote c then counted b (afterString c read) else c :: counted b read
termination_by read => read.length
decreasing_by
  all_goals simp only [List.length_cons]
  · exact Nat.lt_succ_self _
  · exact Nat.lt_succ_of_le (length_afterString_le c read)
  · exact Nat.lt_succ_self _

/-- How many brackets more are opened than closed. -/
def balance (b : Bracket) (t : Text) : Int := t.count b.opening - t.count b.closing

/-- How deep brackets nest at the end of a text. -/
def depth (b : Bracket) (t : Text) : Int := b.balance (b.counted (signs t))

/-- The positions behind `start` at which the depth has returned to zero, counted from `start` on. -/
def zerosAfter (b : Bracket) (t : Text) (start : Nat) : Set Nat :=
  { i | start < i ∧ i < t.length ∧ b.depth (slice t start (i + 1)) = 0 }

/-! ## What counts -/

variable {b : Bracket} {d : Nat} {quote : Option Char}

theorem afterString_nil (q : Char) : afterString q [] = [] := rfl

theorem afterString_escaped (q c : Char) (read : List Sign) :
    afterString q (.escaped c :: read) = afterString q read := rfl

theorem afterString_bare (q c : Char) (read : List Sign) :
    afterString q (.bare c :: read) = if c = q then read else afterString q read := by
  by_cases h : c = q
  · subst h
    simp [afterString]
  · have hne : (Sign.bare c != Sign.bare q) = true := by simpa using h
    rw [if_neg h, afterString, List.dropWhile_cons, if_pos hne, afterString]

/-- What counts of the rest of a reading, `quote` being the quote of an open string. -/
def countedFrom (b : Bracket) : (quote : Option Char) → List Sign → Text
  | none, read => b.counted read
  | some q, read => b.counted (afterString q read)

theorem countedFrom_nil (b : Bracket) (quote : Option Char) : b.countedFrom quote [] = [] := by
  cases quote with
  | none => rw [countedFrom, counted]
  | some q => rw [countedFrom, afterString_nil, counted]

theorem countedFrom_escaped (c : Char) (read : List Sign) :
    b.countedFrom quote (.escaped c :: read) = b.countedFrom quote read := by
  cases quote with
  | none => rw [countedFrom, counted, countedFrom]
  | some q => rw [countedFrom, afterString_escaped, countedFrom]

theorem countedFrom_some (q c : Char) (read : List Sign) :
    b.countedFrom (some q) (.bare c :: read) = b.countedFrom (if c = q then none else some q) read := by
  rw [countedFrom, afterString_bare]
  split <;> rfl

theorem countedFrom_quote {c : Char} (h : b.opensQuote c = true) (read : List Sign) :
    b.countedFrom none (.bare c :: read) = b.countedFrom (some c) read := by
  rw [countedFrom, counted, if_pos h, countedFrom]

theorem countedFrom_char {c : Char} (h : b.opensQuote c = false) (read : List Sign) :
    b.countedFrom none (.bare c :: read) = c :: b.countedFrom none read := by
  rw [countedFrom, counted, h, if_neg Bool.false_ne_true, countedFrom]

theorem balance_nil (b : Bracket) : b.balance [] = 0 := rfl

theorem balance_opening (t : Text) : b.balance (b.opening :: t) = b.balance t + 1 := by
  rw [balance, List.count_cons_self, List.count_cons_of_ne b.closing_ne_opening.symm, balance]
  omega

theorem balance_closing (t : Text) : b.balance (b.closing :: t) = b.balance t - 1 := by
  rw [balance, List.count_cons_self, List.count_cons_of_ne b.closing_ne_opening, balance]
  omega

theorem balance_plain {c : Char} (h : b.IsPlain c) (t : Text) : b.balance (c :: t) = b.balance t := by
  obtain ⟨-, -, hopening, hclosing⟩ := h
  rw [balance, List.count_cons_of_ne hopening, List.count_cons_of_ne hclosing, balance]

theorem read_opening (d : Nat) (read : List Sign) :
    d + b.balance (b.countedFrom none (.bare b.opening :: read)) =
      (d + 1 : Nat) + b.balance (b.countedFrom none read) := by
  rw [countedFrom_char b.opensQuote_opening, balance_opening]
  omega

theorem read_closing (d : Nat) (read : List Sign) :
    (d + 1 : Nat) + b.balance (b.countedFrom none (.bare b.closing :: read)) =
      d + b.balance (b.countedFrom none read) := by
  rw [countedFrom_char b.opensQuote_closing, balance_closing]
  omega

/-! ## Where the depth is zero -/

/-- The positions of a text at which the depth is zero, `d` brackets being open before it and `quote`
being the quote of an open string. -/
def zeros (b : Bracket) (d : Nat) (quote : Option Char) (t : Text) : Set Nat :=
  { i | i < t.length ∧ d + b.balance (b.countedFrom quote (signs (t.take (i + 1)))) = 0 }

/-- A backslash at the very end, which takes nothing, does not count either. -/
theorem balance_backslash (b : Bracket) (quote : Option Char) :
    b.balance (b.countedFrom quote [.bare '\\']) = 0 := by
  cases quote with
  | none =>
    have hquote : b.opensQuote '\\' = false := by cases b <;> decide
    rw [countedFrom_char hquote, countedFrom_nil]
    cases b <;> rfl
  | some q => rw [countedFrom_some, countedFrom_nil, balance_nil]

theorem zeros_nil : b.zeros d quote [] = ∅ :=
  Set.eq_empty_of_forall_notMem fun _ h => absurd h.1 (Nat.not_lt_zero _)

/-- A character behind which `d'` brackets are open: the zeros are those of the rest, one further on. -/
theorem zeros_cons {c : Char} {d' : Nat} {quote' : Option Char} (hc : c ≠ '\\') (hd' : 0 < d')
    (hstep : ∀ read, d + b.balance (b.countedFrom quote (.bare c :: read)) =
      d' + b.balance (b.countedFrom quote' read)) (rest : Text) :
    b.zeros d quote (c :: rest) = (· + 1) '' b.zeros d' quote' rest := by
  ext i
  have hmem : i ∈ b.zeros d quote (c :: rest) ↔
      i < rest.length + 1 ∧ d' + b.balance (b.countedFrom quote' (signs (rest.take i))) = 0 := by
    rw [zeros, Set.mem_ofPred_eq, List.take_succ_cons, signs_cons hc, hstep, List.length_cons]
  rw [hmem]
  cases i with
  | zero =>
    refine ⟨fun h => ?_, fun ⟨j, _, hj⟩ => absurd hj (Nat.succ_ne_zero j)⟩
    rw [List.take_zero, signs, countedFrom_nil, balance_nil] at h
    omega
  | succ i =>
    rw [Function.Injective.mem_set_image fun _ _ => Nat.succ.inj, Nat.add_lt_add_iff_right]
    rfl

/-- Neither half of a pair is a zero, and the zeros of the rest are two further on. -/
theorem zeros_escape (hd : 0 < d) (c : Char) (rest : Text) :
    b.zeros d quote ('\\' :: c :: rest) = (· + 2) '' b.zeros d quote rest := by
  ext i
  match i with
  | 0 =>
    refine ⟨fun h => ?_, fun ⟨j, _, hj⟩ => absurd hj (Nat.succ_ne_zero _)⟩
    have hzero : d + b.balance (b.countedFrom quote [.bare '\\']) = 0 := h.2
    rw [balance_backslash] at hzero
    omega
  | 1 =>
    refine ⟨fun h => ?_, fun ⟨j, _, hj⟩ => absurd (Nat.succ.inj hj) (Nat.succ_ne_zero j)⟩
    have hzero : d + b.balance (b.countedFrom quote [.escaped c]) = 0 := h.2
    rw [countedFrom_escaped, countedFrom_nil, balance_nil] at hzero
    omega
  | i + 2 =>
    rw [Function.Injective.mem_set_image fun _ _ => Nat.add_right_cancel, zeros, zeros, Set.mem_ofPred_eq,
      Set.mem_ofPred_eq, List.take_succ_cons, List.take_succ_cons, signs, countedFrom_escaped, List.length_cons,
      List.length_cons, Nat.add_lt_add_iff_right]

theorem zeros_last (hd : 0 < d) : b.zeros d quote ['\\'] = ∅ := by
  refine Set.eq_empty_of_forall_notMem fun i h => ?_
  obtain ⟨hlt, hzero⟩ := h
  obtain rfl : i = 0 := Nat.lt_one_iff.1 hlt
  have hzero : d + b.balance (b.countedFrom quote [.bare '\\']) = 0 := hzero
  rw [balance_backslash] at hzero
  omega

/-- The last bracket that is open is closed. -/
theorem isLeast_zeros_closing (rest : Text) : IsLeast (b.zeros 1 none (b.closing :: rest)) 0 := by
  refine ⟨⟨Nat.succ_pos _, ?_⟩, fun i _ => Nat.zero_le i⟩
  have hread := read_closing (b := b) 0 []
  rw [List.take_succ_cons, List.take_zero, signs_cons b.closing_ne_escape, signs]
  rwa [countedFrom_nil, balance_nil] at hread

/-! ## The first zero -/

theorem none_eq_some_iff_isLeast_empty (n : Nat) : none = some n ↔ IsLeast (∅ : Set Nat) n :=
  iff_of_false (Option.some_ne_none n).symm fun h => Set.notMem_empty n h.1

theorem isLeast_image_add_iff (k n : Nat) (places : Set Nat) :
    IsLeast ((· + k) '' places) n ↔ ∃ m, IsLeast places m ∧ m + k = n := by
  constructor
  · rintro ⟨⟨m, hm, rfl⟩, hleast⟩
    exact ⟨m, ⟨hm, fun i hi => Nat.le_of_add_le_add_right (hleast ⟨i, hi, rfl⟩)⟩, rfl⟩
  · rintro ⟨m, hm, rfl⟩
    exact Monotone.map_isLeast (fun _ _ h => Nat.add_le_add_right h k) hm

/-- The search finds the first zero: it takes the steps that the depth takes. -/
theorem closingFrom_eq_some_iff (hd : 0 < d) (t : Text) {n : Nat} :
    b.closingFrom d quote t = some n ↔ IsLeast (b.zeros d quote t) n := by
  induction t using sign_induction generalizing d quote n with
  | nil =>
    rw [closingFrom, zeros_nil]
    exact none_eq_some_iff_isLeast_empty n
  | last =>
    rw [closingFrom, zeros_last hd]
    exact none_eq_some_iff_isLeast_empty n
  | escaped c rest ih =>
    rw [closingFrom_escape, zeros_escape hd, isLeast_image_add_iff, Option.map_eq_some_iff]
    simp only [ih hd]
  | bare c rest hc ih =>
    have step {d' : Nat} {quote' : Option Char} (hd' : 0 < d')
        (hfrom : b.closingFrom d quote (c :: rest) = (b.closingFrom d' quote' rest).map (· + 1))
        (hstep : ∀ read, d + b.balance (b.countedFrom quote (.bare c :: read)) =
          d' + b.balance (b.countedFrom quote' read)) :
        b.closingFrom d quote (c :: rest) = some n ↔ IsLeast (b.zeros d quote (c :: rest)) n := by
      rw [hfrom, zeros_cons hc hd' hstep, isLeast_image_add_iff, Option.map_eq_some_iff]
      simp only [ih hd']
    cases quote with
    | some q => exact step hd (closingFrom_some rest hc) fun read => by rw [countedFrom_some]
    | none =>
      cases hquote : b.opensQuote c with
      | true => exact step hd (closingFrom_quote rest hquote) fun read => by rw [countedFrom_quote hquote]
      | false =>
        by_cases hopening : c = b.opening
        · subst hopening
          exact step (Nat.succ_pos d) (closingFrom_opening rest) (read_opening d)
        · by_cases hclosing : c = b.closing
          · subst hclosing
            obtain ⟨d', rfl⟩ : ∃ d', d = d' + 1 := ⟨d - 1, by omega⟩
            cases d' with
            | zero =>
              have hleast := isLeast_zeros_closing (b := b) rest
              rw [closingFrom_closing, if_pos rfl, Option.some.injEq]
              exact ⟨fun h => h ▸ hleast, hleast.unique⟩
            | succ d' => exact step (Nat.succ_pos d') (closingFrom_closing rest) (read_closing (d' + 1))
          · have hplain : b.IsPlain c := ⟨hc, hquote, hopening, hclosing⟩
            refine step hd (closingFrom_plain rest hplain) fun read => ?_
            rw [countedFrom_char hquote, balance_plain hplain]

/-! ## The bracket that closes a block -/

/-- A block is searched behind its bracket, with one bracket open. -/
theorem zerosAfter_eq {t rest : Text} {start : Nat} (h : t.drop start = b.opening :: rest) :
    b.zerosAfter t start = (· + (start + 1)) '' b.zeros 1 none rest := by
  have hlength : t.length = start + 1 + rest.length := by
    have hlength := congrArg List.length h
    rw [List.length_drop, List.length_cons] at hlength
    omega
  have hdepth (i : Nat) : b.depth (slice t start (i + (start + 1) + 1)) =
      1 + b.balance (b.countedFrom none (signs (rest.take (i + 1)))) := by
    have htake : i + (start + 1) + 1 - start = i + 1 + 1 := by omega
    rw [slice, List.drop_take, h, htake, List.take_succ_cons, depth, signs_cons b.opening_ne_escape, ← countedFrom,
      countedFrom_char b.opensQuote_opening, balance_opening]
    omega
  ext stop
  constructor
  · rintro ⟨hlt, hstop, hzero⟩
    obtain ⟨i, rfl⟩ : ∃ i, stop = i + (start + 1) := ⟨stop - (start + 1), by omega⟩
    rw [hdepth] at hzero
    exact ⟨i, ⟨by omega, hzero⟩, rfl⟩
  · rintro ⟨i, ⟨hi, hzero⟩, hstop⟩
    obtain rfl : i + (start + 1) = stop := hstop
    refine ⟨by omega, by omega, ?_⟩
    rw [hdepth]
    exact hzero

/-- What finds the first place, where there is one, finds none just when there is none. -/
theorem eq_none_iff_of_isLeast {found : Option Nat} {places : Set Nat}
    (h : ∀ n, found = some n ↔ IsLeast places n) : found = none ↔ places = ∅ := by
  classical
  constructor
  · rintro rfl
    by_contra hne
    have hsome : ∃ n, n ∈ places := Set.nonempty_iff_ne_empty.2 hne
    have hleast : IsLeast places (Nat.find hsome) := ⟨Nat.find_spec hsome, fun _ hn => Nat.find_min' hsome hn⟩
    exact nomatch (h _).2 hleast
  · rintro rfl
    refine Option.eq_none_iff_forall_ne_some.2 fun n hn => ?_
    exact absurd ((h n).1 hn).1 (Set.notMem_empty n)

theorem nodeLength_of_unclosed {position : Nat} {rest : Text} (h : b.closing? (b.opening :: rest) = none) :
    nodeLength position (b.opening :: rest) = .error (.unclosed b.opening position) := by
  rw [nodeLength_cons b.opening_ne_escape]
  cases b with
  | square =>
    have h : Bracket.square.closing? ('[' :: rest) = none := h
    have hname : isNameChar '[' = false := by decide
    simp [opening, hname, h]
  | curly =>
    have h : Bracket.curly.closing? ('{' :: rest) = none := h
    have hname : isNameChar '{' = false := by decide
    simp [opening, hname, h]

/-- **A block is closed where the depth is zero again.** What is found is the first position behind an
opening bracket at which as many brackets of its kind have been closed as opened, and the bracket that
closes one is there; where there is no such position the block is refused as unclosed. -/
theorem closing?_isLeast (b : Bracket) {t : Text} {start : Nat} (h : t[start]? = some b.opening) :
    (∀ stop, (b.closing? (t.drop start)).map (start + ·) = some stop ↔ IsLeast (b.zerosAfter t start) stop) ∧
    (∀ stop, IsLeast (b.zerosAfter t start) stop → start < stop ∧ t[stop]? = some b.closing) ∧
    (b.closing? (t.drop start) = none ↔ b.zerosAfter t start = ∅) ∧
    (b.zerosAfter t start = ∅ →
      nodeLength start (t.drop start) = .error (.unclosed b.opening start)) := by
  obtain ⟨rest, hrest⟩ : ∃ rest, t.drop start = b.opening :: rest := by
    obtain ⟨hlt, hget⟩ := List.getElem?_eq_some_iff.1 h
    exact ⟨t.drop (start + 1), by rw [List.drop_eq_getElem_cons hlt, hget]⟩
  have hfirst (stop : Nat) :
      (b.closing? (t.drop start)).map (start + ·) = some stop ↔ IsLeast (b.zerosAfter t start) stop := by
    rw [hrest, closing?, closingFrom_opening, Option.map_map, zerosAfter_eq hrest, isLeast_image_add_iff,
      Option.map_eq_some_iff]
    simp only [closingFrom_eq_some_iff Nat.one_pos, Function.comp_apply]
    exact exists_congr fun m => and_congr_right fun _ => by rw [Nat.add_left_comm]
  have hnone : b.closing? (t.drop start) = none ↔ b.zerosAfter t start = ∅ := by
    rw [← eq_none_iff_of_isLeast hfirst, Option.map_eq_none_iff]
  refine ⟨hfirst, fun stop hstop => ⟨hstop.1.1, ?_⟩, hnone, fun hempty => ?_⟩
  · obtain ⟨n, hn, rfl⟩ := Option.map_eq_some_iff.1 ((hfirst stop).2 hstop)
    rw [hrest] at hn
    obtain ⟨inside, behind, rfl, -, rfl⟩ := closing?_eq_some_iff.1 hn
    rw [← List.getElem?_drop, hrest, List.getElem?_cons_succ, List.getElem?_append_right (Nat.le_refl _),
      Nat.sub_self]
    rfl
  · have hclosing := hnone.2 hempty
    rw [hrest] at hclosing ⊢
    exact nodeLength_of_unclosed hclosing

/-- A bracket in a string behind an escaped quote, an escaped one and a nested block; and a string that
ends in a backslash. -/
theorem closing?_isLeast_strings :
    let t := "p[a=\"\\\"]\" \\] [c]]>b".toList
    let u := "p[a='\\".toList
    t[1]? = some Bracket.square.opening ∧ IsLeast (Bracket.square.zerosAfter t 1) 16 ∧ t[16]? = some ']' ∧
    u[1]? = some Bracket.square.opening ∧ Bracket.square.zerosAfter u 1 = ∅ ∧
      nodeLength 1 (u.drop 1) = .error (.unclosed '[' 1) := by
  intro t u
  obtain ⟨hfirst, hclosing, -, -⟩ := @closing?_isLeast .square t 1 (by decide)
  have hleast := (hfirst 16).1 (by decide +kernel)
  obtain ⟨-, -, hnone, hunclosed⟩ := @closing?_isLeast .square u 1 (by decide)
  have hempty := hnone.1 (by decide +kernel)
  exact ⟨by decide, hleast, (hclosing 16 hleast).2, by decide, hempty, hunclosed hempty⟩

end Shorthand.Abbreviation.Bracket
