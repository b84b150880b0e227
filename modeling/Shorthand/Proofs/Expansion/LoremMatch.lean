/-
What counts as a lorem node with modifiers when filler text is wrapped, and what the
wrapping then does with a text. `match?_eq_some_iff` describes a match by the text it
takes, without the order in which that is read: a text begins with one match at most.
-/
import Shorthand.Expansion.Lorem
import Shorthand.Proofs.Text.Run

namespace Shorthand.Expansion.Lorem

open Text (isDecimal isFoldedAsciiLetter isWordChar Run Stops)

/-- A second number of a name, or none. -/
def IsTail (t : Text) : Prop := t = [] ∨ ∃ digits, t = '-' :: digits ∧ ∀ c ∈ digits, isDecimal c = true

/-- The name of filler text: `lorem` in any letter case, letters, digits, and perhaps a
dash with more digits. -/
def IsName (t : Text) : Prop :=
  ∃ stem letters digits tail, t = stem ++ (letters ++ (digits ++ tail)) ∧
    stem.map Char.toLower = "lorem".toList ∧ (∀ c ∈ letters, isFoldedAsciiLetter c = true) ∧
    (∀ c ∈ digits, isDecimal c = true) ∧
    IsTail tail

/-- A modifier as it is matched: a class or an id of word characters, `$`, `@` and `-`, or
an attribute block that ends at the first bracket that closes one. -/
inductive Seen : Text → Prop
  | name {c : Char} {name : Text} : c = '.' ∨ c = '#' → name ≠ [] →
    (∀ x ∈ name, isModifierChar x = true) → Seen (c :: name)
  | block {inside : Text} : (∀ x ∈ inside, x ≠ ']') → Seen ('[' :: (inside ++ [']']))

/-- A repetition as it is matched, or none. -/
def IsRepetition (t : Text) : Prop := t = [] ∨ ∃ digits, t = '*' :: digits ∧ ∀ c ∈ digits, isDecimal c = true

/-- The text of a match. -/
def Match.text (m : Match) : Text := m.name ++ (m.modifiers ++ m.repetition)

/-- A text begins with a match, behind which a node may end. -/
structure Begins (m : Match) (t : Text) : Prop where
  name : IsName m.name
  modifiers : ∃ parts, parts ≠ [] ∧ (∀ part ∈ parts, Seen part) ∧ m.modifiers = parts.flatten
  repetition : IsRepetition m.repetition
  ends : ∃ rest, t = m.text ++ rest ∧ endsNode rest = true

/-! ## Names -/

theorem range_of_asciiLetter {c : Char} (h : Text.isAsciiLetter c = true) :
    (0x41 ≤ c.toNat ∧ c.toNat ≤ 0x5A) ∨ (0x61 ≤ c.toNat ∧ c.toNat ≤ 0x7A) := by
  have hcases : (decide ('A'.val ≤ c.val ∧ c.val ≤ 'Z'.val) ||
      (decide ('a'.val ≤ c.val) && decide (c.val ≤ 'z'.val))) = true := h
  simp only [Bool.or_eq_true, Bool.and_eq_true, decide_eq_true_eq, UInt32.le_iff_toNat_le] at hcases
  exact hcases

theorem not_decimal_of_foldedAsciiLetter {c : Char} (h : isFoldedAsciiLetter c = true) : isDecimal c = false := by
  rw [isFoldedAsciiLetter, Bool.or_eq_true] at h
  rcases h with h | h
  · -- The ASCII letters lie between the first two ranges of digits.
    have hrange := range_of_asciiLetter h
    rw [isDecimal, Text.decimalDigits, Text.Ranges.contains, Text.Ranges.contains]
    simp
    omega
  · simp only [List.contains_iff_mem, List.mem_cons, List.not_mem_nil, or_false] at h
    rcases h with rfl | rfl | rfl | rfl <;> decide

theorem afterLorem?_eq_some_iff {t rest : Text} :
    afterLorem? t = some rest ↔ ∃ stem, t = stem ++ rest ∧ stem.map Char.toLower = "lorem".toList := by
  rw [afterLorem?]
  constructor
  · intro h
    split at h
    next hstem =>
      cases h
      exact ⟨t.take 5, (List.take_append_drop 5 t).symm, hstem⟩
    next => cases h
  · rintro ⟨stem, rfl, hstem⟩
    have hlength : stem.length = 5 := by
      have := congrArg List.length hstem
      rwa [List.length_map] at this
    rw [List.take_left' hlength, if_pos hstem, List.drop_left' hlength]

/-- What is left behind the second number of a name. -/
def afterTail : Text → Text
  | '-' :: more => more.dropWhile isDecimal
  | rest => rest

/-- No name goes on here. -/
def StopsName (rest : Text) : Prop :=
  ∀ c ∈ rest.head?, isFoldedAsciiLetter c = false ∧ isDecimal c = false ∧ c ≠ '-'

theorem nameLength?_eq (t : Text) :
    nameLength? t = (afterLorem? t).map fun rest =>
      t.length - (afterTail ((rest.dropWhile isFoldedAsciiLetter).dropWhile isDecimal)).length := rfl

theorem exists_tail (t : Text) : ∃ tail, t = tail ++ afterTail t ∧ IsTail tail := by
  unfold afterTail
  split
  next more =>
    exact ⟨'-' :: more.takeWhile isDecimal, by simp,
      .inr ⟨_, rfl, (Text.run_takeWhile isDecimal more).all⟩⟩
  next => exact ⟨[], rfl, .inl rfl⟩

theorem afterTail_tail {tail rest : Text} (h : IsTail tail) (hrest : StopsName rest) :
    afterTail (tail ++ rest) = rest := by
  rcases h with rfl | ⟨digits, rfl, hdigits⟩
  · rw [List.nil_append]
    unfold afterTail
    split
    next more => exact absurd rfl (hrest '-' rfl).2.2
    next => rfl
  · have hrun : Run isDecimal digits rest := ⟨hdigits, fun c hc => (hrest c hc).2.1⟩
    rw [List.cons_append, afterTail, hrun.dropWhile_eq]

theorem exists_name {t : Text} {n : Nat} (h : nameLength? t = some n) :
    ∃ name rest, t = name ++ rest ∧ IsName name ∧ name.length = n := by
  rw [nameLength?_eq, Option.map_eq_some_iff] at h
  obtain ⟨after, hafter, rfl⟩ := h
  obtain ⟨stem, rfl, hstem⟩ := afterLorem?_eq_some_iff.1 hafter
  have hletters := Text.run_takeWhile isFoldedAsciiLetter after
  have hdigits := Text.run_takeWhile isDecimal (after.dropWhile isFoldedAsciiLetter)
  obtain ⟨tail, htail, hisTail⟩ := exists_tail ((after.dropWhile isFoldedAsciiLetter).dropWhile isDecimal)
  have hsplit : after = after.takeWhile isFoldedAsciiLetter ++
      ((after.dropWhile isFoldedAsciiLetter).takeWhile isDecimal ++
        (after.dropWhile isFoldedAsciiLetter).dropWhile isDecimal) := by
    rw [List.takeWhile_append_dropWhile, List.takeWhile_append_dropWhile]
  rw [htail] at hsplit
  have hlength := congrArg List.length hsplit
  refine ⟨_, afterTail ((after.dropWhile isFoldedAsciiLetter).dropWhile isDecimal), ?_,
    ⟨stem, _, _, tail, rfl, hstem, hletters.all, hdigits.all, hisTail⟩, ?_⟩
  · simp only [List.append_assoc] at hsplit ⊢
    exact congrArg _ hsplit
  · simp only [List.length_append] at hlength ⊢
    omega

theorem nameLength?_name {name rest : Text} (h : IsName name) (hrest : StopsName rest) :
    nameLength? (name ++ rest) = some name.length := by
  obtain ⟨stem, letters, digits, tail, rfl, hstem, hletters, hdigits, htail⟩ := h
  have hdash : isFoldedAsciiLetter '-' = false ∧ isDecimal '-' = false := by decide
  have hafterDigits : Stops isDecimal (tail ++ rest) := by
    rcases htail with rfl | ⟨more, rfl, -⟩
    · exact fun c hc => (hrest c hc).2.1
    · exact Text.stops_cons.2 hdash.2
  have hafterLetters : Stops isFoldedAsciiLetter (digits ++ (tail ++ rest)) := by
    cases digits with
    | nil =>
      rcases htail with rfl | ⟨more, rfl, -⟩
      · exact fun c hc => (hrest c hc).1
      · exact Text.stops_cons.2 hdash.1
    | cons c digits =>
      refine Text.stops_cons.2 (Bool.eq_false_iff.2 fun hletter => ?_)
      have hdecimal := hdigits c List.mem_cons_self
      rw [not_decimal_of_foldedAsciiLetter hletter] at hdecimal
      cases hdecimal
  have hletters : Run isFoldedAsciiLetter letters (digits ++ (tail ++ rest)) := ⟨hletters, hafterLetters⟩
  have hdigits : Run isDecimal digits (tail ++ rest) := ⟨hdigits, hafterDigits⟩
  have hlorem : afterLorem? (stem ++ (letters ++ (digits ++ (tail ++ rest)))) =
      some (letters ++ (digits ++ (tail ++ rest))) := afterLorem?_eq_some_iff.2 ⟨stem, rfl, hstem⟩
  simp only [List.append_assoc]
  rw [nameLength?_eq, hlorem, Option.map_some, hletters.dropWhile_eq, hdigits.dropWhile_eq,
    afterTail_tail htail hrest]
  simp only [List.length_append, Option.some.injEq]
  omega

/-! ## Modifiers -/

theorem Seen.head {part : Text} (h : Seen part) : ∃ c more, part = c :: more ∧ (c = '.' ∨ c = '#' ∨ c = '[') := by
  cases h with
  | name hc _ _ => exact ⟨_, _, rfl, hc.imp_right .inl⟩
  | block _ => exact ⟨_, _, rfl, .inr (.inr rfl)⟩

/-- No modifier begins or goes on here. -/
def StopsModifiers (rest : Text) : Prop :=
  ∀ c ∈ rest.head?, isModifierChar c = false ∧ c ≠ '.' ∧ c ≠ '#' ∧ c ≠ '['

theorem exists_modifier {t : Text} {n : Nat} (h : modifierLength? t = some n) :
    ∃ part rest, t = part ++ rest ∧ Seen part ∧ part.length = n := by
  unfold modifierLength? at h
  split at h
  next rest =>
    simp only at h
    split at h
    next hclosed =>
      cases h
      have hinside := Text.run_takeWhile (· != ']') rest
      have hsplit := List.takeWhile_append_dropWhile (p := (· != ']')) (l := rest)
      generalize rest.takeWhile (· != ']') = inside at *
      cases hleft : rest.dropWhile (· != ']') with
      | nil =>
        rw [hleft, List.append_nil] at hsplit
        rw [hsplit] at hclosed
        exact absurd hclosed (Nat.lt_irrefl _)
      | cons c left =>
        rw [hleft] at hsplit hinside
        obtain rfl : c = ']' := by simpa using Text.stops_cons.1 hinside.stops
        refine ⟨'[' :: (inside ++ [']']), left, by simp [← hsplit],
          .block fun x hx => by simpa using hinside.all x hx, by simp⟩
    next => cases h
  next c rest _ =>
    simp only [Option.ite_none_right_eq_some, Bool.and_eq_true, Bool.or_eq_true, decide_eq_true_eq,
      Bool.not_eq_true', List.isEmpty_eq_false_iff, Option.some.injEq] at h
    obtain ⟨⟨hsign, hne⟩, rfl⟩ := h
    refine ⟨c :: rest.takeWhile isModifierChar, rest.dropWhile isModifierChar, by simp,
      .name hsign hne (Text.run_takeWhile isModifierChar rest).all, by simp⟩
  next => cases h

theorem modifierLength?_seen {part rest : Text} (h : Seen part) (hrest : Stops isModifierChar rest) :
    modifierLength? (part ++ rest) = some part.length := by
  cases h with
  | @name c name hsign hne hall =>
    have hrun : Run isModifierChar name rest := ⟨hall, hrest⟩
    rcases hsign with rfl | rfl <;>
      simp [modifierLength?, hrun.takeWhile_eq, hne]
  | @block inside hinside =>
    have hrun : Run (· != ']') inside (']' :: rest) :=
      ⟨fun x hx => by simpa using hinside x hx, Text.stops_cons.2 (by simp)⟩
    have htake := hrun.takeWhile_eq
    simp [modifierLength?, htake]

theorem modifierLength?_stops {rest : Text} (h : StopsModifiers rest) : modifierLength? rest = none := by
  unfold modifierLength?
  split
  next more => exact absurd rfl (h '[' rfl).2.2.2
  next c more _ =>
    obtain ⟨-, hdot, hhash, -⟩ := h c rfl
    simp [hdot, hhash]
  next => rfl

theorem modifiersLength_append {part rest : Text} (hpart : Seen part)
    (h : modifierLength? (part ++ rest) = some part.length) :
    modifiersLength (part ++ rest) = part.length + modifiersLength rest := by
  obtain ⟨c, more, rfl, -⟩ := hpart.head
  rw [modifiersLength, h]
  simp

theorem exists_modifiers (t : Text) :
    ∃ (parts : List Text) (rest : Text), t = parts.flatten ++ rest ∧ (∀ part ∈ parts, Seen part) ∧
      parts.flatten.length = modifiersLength t := by
  cases h : modifierLength? t with
  | none => exact ⟨[], t, rfl, by simp, by rw [modifiersLength, h]; rfl⟩
  | some n =>
    obtain ⟨part, rest, rfl, hpart, rfl⟩ := exists_modifier h
    obtain ⟨c, more, rfl, -⟩ := hpart.head
    obtain ⟨parts, left, hrest, hparts, hlength⟩ := exists_modifiers rest
    refine ⟨(c :: more) :: parts, left, by simp [hrest], List.forall_mem_cons.2 ⟨hpart, hparts⟩, ?_⟩
    rw [modifiersLength_append hpart h, ← hlength, List.flatten_cons, List.length_append]
termination_by t.length

theorem modifiersLength_modifiers {parts : List Text} {rest : Text} (h : ∀ part ∈ parts, Seen part)
    (hrest : StopsModifiers rest) : modifiersLength (parts.flatten ++ rest) = parts.flatten.length := by
  induction parts with
  | nil =>
    rw [List.flatten_nil, List.nil_append, modifiersLength, modifierLength?_stops hrest]
    rfl
  | cons part parts ih =>
    obtain ⟨hpart, hparts⟩ := List.forall_mem_cons.1 h
    have hstops : Stops isModifierChar (parts.flatten ++ rest) := by
      cases parts with
      | nil => exact fun c hc => (hrest c hc).1
      | cons next parts =>
        obtain ⟨c, more, rfl, hc⟩ := (hparts next List.mem_cons_self).head
        refine Text.stops_cons.2 ?_
        rcases hc with rfl | rfl | rfl <;> decide
    rw [List.flatten_cons, List.append_assoc, modifiersLength_append hpart (modifierLength?_seen hpart hstops),
      ih hparts, List.length_append]

/-! ## Matches -/

/-- What may stand behind the modifiers of a match. -/
def Closes (rest : Text) : Prop := ∀ c ∈ rest.head?, c ∈ ['*', '+', '^', ')', '\n']

theorem closes_of_endsNode {rest : Text} (h : endsNode rest = true) : Closes rest ∧ Stops isDecimal rest := by
  unfold endsNode at h
  split at h
  next => exact ⟨by simp [Closes], Text.stops_nil _⟩
  next => exact ⟨by simp [Closes], Text.stops_cons.2 (by decide)⟩
  next c more _ =>
    simp only [Bool.or_eq_true, beq_iff_eq] at h
    rcases h with (rfl | rfl) | rfl <;>
      exact ⟨by simp [Closes], Text.stops_cons.2 (by decide)⟩

theorem Closes.stopsModifiers {rest : Text} (h : Closes rest) : StopsModifiers rest := by
  intro c hc
  have hmem := h c hc
  simp only [List.mem_cons, List.not_mem_nil, or_false] at hmem
  rcases hmem with rfl | rfl | rfl | rfl | rfl <;> decide

theorem closes_repetition {repetition rest : Text} (h : IsRepetition repetition) (hrest : Closes rest) :
    Closes (repetition ++ rest) := by
  rcases h with rfl | ⟨digits, rfl, -⟩
  · exact hrest
  · simp [Closes]

theorem stopsName_cons {c : Char} {rest : Text} (hc : c = '.' ∨ c = '#' ∨ c = '[') : StopsName (c :: rest) := by
  intro d hd
  obtain rfl : c = d := by simpa using hd
  rcases hc with rfl | rfl | rfl <;> decide

theorem Begins.modifiers_head {m : Match} {t : Text} (h : Begins m t) :
    ∃ c more, m.modifiers = c :: more ∧ (c = '.' ∨ c = '#' ∨ c = '[') := by
  obtain ⟨parts, hne, hparts, heq⟩ := h.modifiers
  obtain ⟨part, parts, rfl⟩ := List.exists_cons_of_ne_nil hne
  obtain ⟨c, more, rfl, hc⟩ := (hparts part List.mem_cons_self).head
  exact ⟨c, more ++ parts.flatten, heq, hc⟩

/-- The repetition that begins a text, if there is one. -/
def repetitionOf : Text → Text
  | '*' :: more => '*' :: more.takeWhile isDecimal
  | _ => []

theorem match?_eq (t : Text) :
    match? t = match nameLength? t with
      | none => none
      | some n =>
        let rest := t.drop n
        let left := rest.drop (modifiersLength rest)
        if 0 < modifiersLength rest && endsNode (left.drop (repetitionOf left).length) then
          some ⟨t.take n, rest.take (modifiersLength rest), repetitionOf left⟩
        else none := rfl

theorem split_repetition (t : Text) :
    t = repetitionOf t ++ t.drop (repetitionOf t).length ∧ IsRepetition (repetitionOf t) := by
  unfold repetitionOf
  split
  next more =>
    have hsplit := List.takeWhile_append_dropWhile (p := isDecimal) (l := more)
    refine ⟨?_, .inr ⟨_, rfl, (Text.run_takeWhile isDecimal more).all⟩⟩
    generalize more.takeWhile isDecimal = digits at *
    generalize more.dropWhile isDecimal = left at *
    subst hsplit
    simp
  next => exact ⟨rfl, .inl rfl⟩

theorem repetitionOf_repetition {repetition rest : Text} (h : IsRepetition repetition)
    (hrest : endsNode rest = true) : repetitionOf (repetition ++ rest) = repetition := by
  obtain ⟨-, hstops⟩ := closes_of_endsNode hrest
  rcases h with rfl | ⟨digits, rfl, hdigits⟩
  · rw [List.nil_append]
    unfold repetitionOf
    split
    next more => exact absurd hrest (by cases more <;> simp [endsNode])
    next => rfl
  · have hrun : Run isDecimal digits rest := ⟨hdigits, hstops⟩
    rw [List.cons_append, repetitionOf, hrun.takeWhile_eq]

/-- A text is matched just when it begins with a match. -/
theorem match?_eq_some_iff {t : Text} {m : Match} : match? t = some m ↔ Begins m t := by
  rw [match?_eq]
  constructor
  · intro h
    cases hn : nameLength? t with
    | none =>
      rw [hn] at h
      cases h
    | some n =>
      rw [hn] at h
      obtain ⟨name, rest, rfl, hname, rfl⟩ := exists_name hn
      obtain ⟨parts, left, rfl, hparts, hlength⟩ := exists_modifiers rest
      obtain ⟨hleft, hrepetition⟩ := split_repetition left
      simp only [List.drop_left, List.take_left, ← hlength, Option.ite_none_right_eq_some,
        Bool.and_eq_true, decide_eq_true_eq, Option.some.injEq] at h
      obtain ⟨⟨hpos, hends⟩, rfl⟩ := h
      have hne : parts ≠ [] := by
        rintro rfl
        exact absurd hpos (Nat.lt_irrefl 0)
      refine ⟨hname, ⟨parts, hne, hparts, rfl⟩, hrepetition, _, ?_, hends⟩
      rw [Match.text, List.append_assoc, List.append_assoc, ← hleft]
  · intro hm
    obtain ⟨c, more, hhead, hc⟩ := hm.modifiers_head
    obtain ⟨hname, ⟨parts, hne, hparts, hmodifiers⟩, hrepetition, rest, rfl, hends⟩ := hm
    obtain ⟨name, modifiers, repetition⟩ := m
    subst hmodifiers
    have hcloses := closes_repetition hrepetition (closes_of_endsNode hends).1
    have hstops : StopsName (parts.flatten ++ (repetition ++ rest)) := by
      simp only at hhead
      rw [hhead]
      exact stopsName_cons hc
    have hlength := nameLength?_name hname hstops
    have hmodifiers := modifiersLength_modifiers hparts hcloses.stopsModifiers
    have hpos : 0 < parts.flatten.length := by
      simp only at hhead
      rw [hhead]
      exact Nat.succ_pos _
    simp only [Match.text, List.append_assoc, hlength, hmodifiers, List.drop_left, List.take_left,
      repetitionOf_repetition hrepetition hends, hends, hpos, decide_true, Bool.and_self, if_true]

theorem Begins.unique {m m' : Match} {t : Text} (h : Begins m t) (h' : Begins m' t) : m = m' := by
  rw [← match?_eq_some_iff] at h h'
  rw [h, Option.some.injEq] at h'
  exact h'

/-- A text begins with one name only. -/
theorem Begins.name_eq {m : Match} {name rest : Text} (h : Begins m (name ++ rest)) (hname : IsName name)
    (hrest : StopsName rest) : m.name = name := by
  obtain ⟨c, more, hmodifiers, hc⟩ := h.modifiers_head
  obtain ⟨left, heq, -⟩ := h.ends
  rw [Match.text, hmodifiers, List.append_assoc, List.cons_append, List.cons_append] at heq
  have hlength := nameLength?_name hname hrest
  rw [heq, nameLength?_name h.name (stopsName_cons hc), Option.some.injEq] at hlength
  exact ((List.append_inj heq hlength.symm).1).symm

theorem eq_of_toLower {c : Char} (h : c.toLower = 'l') : c = 'l' ∨ c = 'L' := by
  unfold Char.toLower at h
  split at h
  next hupper =>
    have hval := congrArg (·.val.toNat) h
    simp only [ge_iff_le, UInt32.le_iff_toNat_le] at hupper
    simp at hval hupper
    refine .inr (Char.ext (UInt32.toNat.inj ?_))
    simp
    omega
  next => exact .inl h

theorem IsName.head {t : Text} (h : IsName t) : ∃ c more, t = c :: more ∧ (c = 'l' ∨ c = 'L') := by
  obtain ⟨stem, letters, digits, tail, rfl, hstem, -⟩ := h
  cases stem with
  | nil => cases hstem
  | cons c stem => exact ⟨c, _, rfl, eq_of_toLower (List.cons.inj hstem).1⟩

theorem Begins.head {m : Match} {t : Text} (h : Begins m t) : ∃ c ∈ t.head?, c = 'l' ∨ c = 'L' := by
  obtain ⟨rest, rfl, -⟩ := h.ends
  obtain ⟨c, more, hname, hc⟩ := h.name.head
  exact ⟨c, by rw [Match.text, hname]; rfl, hc⟩

theorem Match.length_text (m : Match) : m.text.length = m.length := by
  rw [Match.text, Match.length, List.length_append, List.length_append, Nat.add_assoc]

/-! ## Wrapping -/

/-- Whether a node may begin behind a text, when it may begin before it. -/
def beginsAfter (begins : Bool) : Text → Bool
  | [] => begins
  | c :: rest => beginsAfter (beginsNode c) rest

theorem beginsAfter_append (begins : Bool) (t t' : Text) :
    beginsAfter begins (t ++ t') = beginsAfter (beginsAfter begins t) t' := by
  induction t generalizing begins with
  | nil => rfl
  | cons c t ih => exact ih _

/-- Nothing is matched that begins in a text, with `rest` behind it. -/
def Unmatched (begins : Bool) (t rest : Text) : Prop :=
  ∀ before after, t = before ++ after → after ≠ [] → beginsAfter begins before = true →
    ∀ m, ¬ Begins m (after ++ rest)

/-- What is written for a match. -/
def written (whole : Nat) (m : Match) : Text :=
  if m.length = whole then m.element else '(' :: m.element ++ [')']

theorem written_head {m : Match} {t : Text} (h : Begins m t) (whole : Nat) :
    ∃ c more, written whole m = c :: more ∧ c ≠ 'l' ∧ c ≠ 'L' := by
  obtain ⟨c, more, hmodifiers, hc⟩ := h.modifiers_head
  rw [written]
  split
  · refine ⟨c, _, by rw [Match.element, hmodifiers]; rfl, ?_⟩
    rcases hc with rfl | rfl | rfl <;> decide
  · exact ⟨'(', _, rfl, by decide⟩

theorem wrapFrom_skip (whole : Nat) (begins : Bool) (t rest : Text) :
    wrapFrom whole begins t.length (t ++ rest) = wrapFrom whole (beginsAfter begins t) 0 rest := by
  induction t generalizing begins with
  | nil => rfl
  | cons c t ih => exact ih _

theorem wrapFrom_match {m : Match} {rest : Text} (h : Begins m (m.text ++ rest)) (whole : Nat) :
    wrapFrom whole true 0 (m.text ++ rest) =
      written whole m ++ wrapFrom whole (beginsAfter true m.text) 0 rest := by
  have hmatch := match?_eq_some_iff.2 h
  have hlength := m.length_text
  obtain ⟨c, more, hname, -⟩ := h.name.head
  have htext : m.text = c :: (more ++ (m.modifiers ++ m.repetition)) := by
    rw [Match.text, hname, List.cons_append]
  rw [htext, List.length_cons] at hlength
  rw [htext, List.cons_append] at hmatch
  rw [htext, List.cons_append, wrapFrom, if_pos rfl, hmatch]
  simp only [← hlength, Nat.add_sub_cancel, wrapFrom_skip, written, beginsAfter]

theorem wrapFrom_cons {begins : Bool} {c : Char} {t : Text} (h : begins = true → ∀ m, ¬ Begins m (c :: t))
    (whole : Nat) : wrapFrom whole begins 0 (c :: t) = c :: wrapFrom whole (beginsNode c) 0 t := by
  have hnone : (if begins then match? (c :: t) else none) = none := by
    cases begins with
    | false => rfl
    | true =>
      cases hm : match? (c :: t) with
      | none => rfl
      | some m => exact absurd (match?_eq_some_iff.1 hm) (h rfl m)
  rw [wrapFrom, hnone]

theorem unmatched_cons {begins : Bool} {c : Char} {t rest : Text} :
    Unmatched begins (c :: t) rest ↔
      (begins = true → ∀ m, ¬ Begins m (c :: (t ++ rest))) ∧ Unmatched (beginsNode c) t rest := by
  constructor
  · intro h
    refine ⟨fun hbegins => h [] (c :: t) rfl (List.cons_ne_nil _ _) hbegins, ?_⟩
    rintro before after rfl hne hbegins
    exact h (c :: before) after rfl hne hbegins
  · rintro ⟨hfirst, hrest⟩ before after heq hne hbegins
    cases before with
    | nil =>
      rw [List.nil_append] at heq
      subst heq
      exact hfirst hbegins
    | cons d before =>
      obtain ⟨rfl, rfl⟩ := List.cons.inj heq
      exact hrest before after rfl hne hbegins

/-- Where nothing is matched, nothing is changed. -/
theorem wrapFrom_unmatched {begins : Bool} {t rest : Text} (h : Unmatched begins t rest) (whole : Nat) :
    wrapFrom whole begins 0 (t ++ rest) = t ++ wrapFrom whole (beginsAfter begins t) 0 rest := by
  induction t generalizing begins with
  | nil => rfl
  | cons c t ih =>
    obtain ⟨hfirst, hrest⟩ := unmatched_cons.1 h
    rw [List.cons_append, wrapFrom_cons hfirst, ih hrest]
    rfl

/-- Where nothing is changed, nothing is matched: what is written for a match begins with
another character. -/
theorem unmatched_of_wrapFrom {whole : Nat} {begins : Bool} {t rest after : Text}
    (h : wrapFrom whole begins 0 (t ++ rest) = t ++ after) : Unmatched begins t rest := by
  induction t generalizing begins with
  | nil =>
    intro before after' heq hne
    exact absurd (List.append_eq_nil_iff.1 heq.symm).2 hne
  | cons c t ih =>
    have hfirst : begins = true → ∀ m, ¬ Begins m (c :: (t ++ rest)) := by
      rintro rfl m hm
      obtain ⟨d, hd, hl⟩ := hm.head
      obtain rfl : c = d := by simpa using hd
      obtain ⟨e, more, hwritten, hne⟩ := written_head hm whole
      obtain ⟨left, heq, -⟩ := id hm.ends
      rw [List.cons_append, heq] at h
      rw [heq] at hm
      rw [wrapFrom_match hm, hwritten] at h
      obtain ⟨rfl, -⟩ := List.cons.inj h
      rcases hl with rfl | rfl
      · exact hne.1 rfl
      · exact hne.2 rfl
    rw [List.cons_append, wrapFrom_cons hfirst] at h
    exact unmatched_cons.2 ⟨hfirst, ih (List.cons.inj h).2⟩

end Shorthand.Expansion.Lorem
