/-
How a markup abbreviation is cut into tokens, said without a scanner: the parts of a
node, the pieces a text is made of, and the cuts of a text into pieces that are as long
as they can be. `tokenize_iff_cut` says that the tokens of a text are its cut, and that
a text without a cut is malformed.

A text has one cut, since no part of a node begins another one: which part begins a text
is told by its first character, and a block ends in one place only.
-/
import Mathlib.Data.List.Chain
import Shorthand.Abbreviation.Tokenize
import Shorthand.Proofs.Abbreviation.AttributeList
import Shorthand.Proofs.Abbreviation.Block

namespace Shorthand.Abbreviation

open Text (isDigit isDecimal Run Stops)

/-- A part of a node: a character of a name, the sign of a class or an id, an escaped
character, attributes in brackets, a text in braces. -/
inductive NodePart : Text → Prop
  | name {c : Char} : isNameChar c = true → NodePart [c]
  | sign {c : Char} : c = '.' ∨ c = '#' → NodePart [c]
  | escaped (c : Char) : NodePart ['\\', c]
  | attributes {inside : Text} : Bracket.square.Body inside → AttributeList inside →
    NodePart ('[' :: (inside ++ [']']))
  | text {inside : Text} : Bracket.curly.Body inside → NodePart ('{' :: (inside ++ ['}']))

/-- No part of a node begins a text. -/
def NoPart (t : Text) : Prop := ∀ part, NodePart part → ¬ part <+: t

/-- A piece of an abbreviation, which nothing that stands behind it makes longer. -/
inductive Piece : TokenKind → (value rest : Text) → Prop
  | operator {c : Char} {rest : Text} : c = '>' ∨ c = '+' → Piece .operator [c] rest
  | climb {more rest : Text} : Run (· == '^') more rest → Piece .operator ('^' :: more) rest
  | opening {rest : Text} : Piece .opening ['('] rest
  | closing {rest : Text} : Piece .closing [')'] rest
  | repetition {digits rest : Text} : Run isDigit digits rest →
    (digits = [] ∨ ∃ n ≤ maxRepeat, Text.number? digits = some n) → Piece .repetition ('*' :: digits) rest
  | node {parts : List Text} {rest : Text} : parts ≠ [] → (∀ part ∈ parts, NodePart part) →
    NoPart rest → Piece .node parts.flatten rest

/-- The pieces of a text from left to right, as tokens. -/
inductive Cut : Text → List Token → Prop
  | nil : Cut [] []
  | cons {kind : TokenKind} {value rest : Text} {tokens : List Token} :
    Piece kind value rest → Cut rest tokens → Cut (value ++ rest) (⟨kind, value⟩ :: tokens)

/-! ## Parts -/

/-- The characters that begin a piece other than a node. -/
def isMark (c : Char) : Bool := ['>', '+', '^', '(', ')', '*'].contains c

/-- The characters of blocks, with which a node cannot end. -/
def isBlockBracket (c : Char) : Bool := ['[', ']', '{', '}'].contains c

theorem isMark_of_nameChar {c : Char} (h : isNameChar c = true) : isMark c = false := by
  refine Bool.eq_false_iff.2 fun hm => ?_
  simp only [isMark, List.contains_iff_mem, List.mem_cons, List.not_mem_nil, or_false] at hm
  rcases hm with rfl | rfl | rfl | rfl | rfl | rfl <;> revert h <;> decide

theorem NodePart.head {part : Text} (h : NodePart part) : ∃ c rest, part = c :: rest ∧ isMark c = false := by
  cases h with
  | name hc => exact ⟨_, _, rfl, isMark_of_nameChar hc⟩
  | sign hc => rcases hc with rfl | rfl <;> exact ⟨_, _, rfl, by decide⟩
  | escaped c => exact ⟨_, _, rfl, by decide⟩
  | attributes _ _ => exact ⟨_, _, rfl, by decide⟩
  | text _ => exact ⟨_, _, rfl, by decide⟩

/-- What is read of a node where no escaped character begins. -/
theorem nodeLength_cons {c : Char} (hc : c ≠ '\\') (position : Nat) (rest : Text) :
    nodeLength position (c :: rest) =
      if isNameChar c || c = '.' || c = '#' then (nodeLength (position + 1) rest).map (· + 1)
      else if c = '[' then
        match Bracket.square.closing? (c :: rest) with
        | none => .error (.unclosed c position)
        | some last =>
          if isAttributeList (rest.take (last - 1)) then
            (nodeLength (position + last + 1) (rest.drop last)).map (· + (last + 1))
          else .error (.malformedAttributes position)
      else if c = '{' then
        match Bracket.curly.closing? (c :: rest) with
        | none => .error (.unclosed c position)
        | some last => (nodeLength (position + last + 1) (rest.drop last)).map (· + (last + 1))
      else if c = ']' || c = '}' then .error (.unmatched c position)
      else .ok 0 := by
  rw [nodeLength.eq_def]
  split
  next h => cases h
  next d more h => exact absurd (List.cons.inj h).1 hc
  next h =>
    cases h
    rfl

theorem nodeLength_part {part : Text} (h : NodePart part) (position : Nat) (rest : Text) :
    nodeLength position (part ++ rest) =
      (nodeLength (position + part.length) rest).map (· + part.length) := by
  cases h with
  | @name c hc =>
    have hne : c ≠ '\\' := by
      rintro rfl
      exact absurd hc (by decide)
    rw [List.cons_append, nodeLength_cons hne]
    simp [hc]
  | sign hc =>
    rcases hc with rfl | rfl
    · rw [List.cons_append, nodeLength_cons (by decide)]
      simp
    · rw [List.cons_append, nodeLength_cons (by decide)]
      simp
  | escaped c => rw [List.cons_append, List.cons_append, nodeLength]; rfl
  | @attributes inside hbody hlist =>
    have hclosing := Bracket.closing?_body hbody rest
    have hname : isNameChar '[' = false := by decide
    rw [List.cons_append, List.append_assoc, nodeLength_cons (by decide)]
    simp only [Bracket.opening, Bracket.closing] at hclosing
    simp [hclosing, hname, isAttributeList_iff.2 hlist, Nat.add_assoc]
  | @text inside hbody =>
    have hclosing := Bracket.closing?_body hbody rest
    have hname : isNameChar '{' = false := by decide
    rw [List.cons_append, List.append_assoc, nodeLength_cons (by decide)]
    simp only [Bracket.opening, Bracket.closing] at hclosing
    simp [hclosing, hname, Nat.add_assoc]

/-- Where no part begins, a node ends, unless a block is broken there. -/
theorem nodeLength_of_noPart {t : Text} (h : NoPart t) (position : Nat) :
    (Stops isBlockBracket t ∧ nodeLength position t = .ok 0) ∨
      (¬ Stops isBlockBracket t ∧ ∃ why, nodeLength position t = .error why) := by
  have hnone {part : Text} (rest : Text) (hpart : NodePart part) : t ≠ part ++ rest := by
    rintro rfl
    exact h part hpart (List.prefix_append part rest)
  cases t with
  | nil => exact .inl ⟨Text.stops_nil _, by rw [nodeLength]⟩
  | cons c rest =>
  rw [Text.stops_cons]
  by_cases hescape : c = '\\'
  · subst hescape
    cases rest with
    | nil =>
      have hname : isNameChar '\\' = false := by decide
      exact .inl ⟨by decide, by simp [nodeLength, hname]⟩
    | cons d rest => exact absurd rfl (hnone rest (.escaped d))
  rw [nodeLength_cons hescape]
  by_cases hplain : (isNameChar c || decide (c = '.') || decide (c = '#')) = true
  · have hpart : NodePart [c] := by
      rw [Bool.or_assoc, Bool.or_eq_true, Bool.or_eq_true, decide_eq_true_iff, decide_eq_true_iff] at hplain
      exact hplain.elim .name .sign
    exact absurd rfl (hnone rest hpart)
  rw [if_neg hplain]
  by_cases hsquare : c = '['
  · subst hsquare
    refine .inr ⟨by decide, ?_⟩
    rw [if_pos rfl]
    cases hclosing : Bracket.square.closing? ('[' :: rest) with
    | none => exact ⟨_, rfl⟩
    | some last =>
      obtain ⟨inside, behind, rfl, hbody, rfl⟩ := Bracket.closing?_eq_some_iff.1 hclosing
      have hlist : ¬ isAttributeList inside = true := fun hlist =>
        hnone behind (.attributes hbody (isAttributeList_iff.1 hlist)) (by simp [Bracket.closing])
      simp [hlist]
  rw [if_neg hsquare]
  by_cases hcurly : c = '{'
  · subst hcurly
    refine .inr ⟨by decide, ?_⟩
    rw [if_pos rfl]
    cases hclosing : Bracket.curly.closing? ('{' :: rest) with
    | none => exact ⟨_, rfl⟩
    | some last =>
      obtain ⟨inside, behind, rfl, hbody, rfl⟩ := Bracket.closing?_eq_some_iff.1 hclosing
      exact absurd (by simp [Bracket.closing]) (hnone behind (.text hbody))
  rw [if_neg hcurly]
  by_cases hclosing : c = ']' ∨ c = '}'
  · rw [if_pos (by simpa using hclosing)]
    exact .inr ⟨by rcases hclosing with rfl | rfl <;> decide, _, rfl⟩
  · rw [if_neg (by simpa using hclosing)]
    rw [not_or] at hclosing
    exact .inl ⟨by simp [isBlockBracket, hsquare, hcurly, hclosing], rfl⟩

/-- Every text begins with parts of a node, perhaps none, behind which no part begins. -/
theorem exists_parts (t : Text) :
    ∃ (parts : List Text) (rest : Text),
      t = parts.flatten ++ rest ∧ (∀ part ∈ parts, NodePart part) ∧ NoPart rest := by
  by_cases h : ∃ part, NodePart part ∧ part <+: t
  · obtain ⟨part, hpart, rest, rfl⟩ := h
    obtain ⟨c, more, rfl, -⟩ := hpart.head
    obtain ⟨parts, left, rfl, hparts, hleft⟩ := exists_parts rest
    exact ⟨(c :: more) :: parts, left, by simp, List.forall_mem_cons.2 ⟨hpart, hparts⟩, hleft⟩
  · exact ⟨[], t, rfl, by simp, fun part hpart hprefix => h ⟨part, hpart, hprefix⟩⟩
termination_by t.length

theorem flatten_head {parts : List Text} (hne : parts ≠ []) (h : ∀ part ∈ parts, NodePart part) :
    ∃ c more, parts.flatten = c :: more ∧ isMark c = false := by
  obtain ⟨part, parts, rfl⟩ := List.exists_cons_of_ne_nil hne
  obtain ⟨c, more, rfl, hmark⟩ := (h part List.mem_cons_self).head
  exact ⟨c, more ++ parts.flatten, rfl, hmark⟩

theorem nodeLength_parts {parts : List Text} (h : ∀ part ∈ parts, NodePart part) (position : Nat)
    (rest : Text) :
    nodeLength position (parts.flatten ++ rest) =
      (nodeLength (position + parts.flatten.length) rest).map (· + parts.flatten.length) := by
  induction parts generalizing position with
  | nil =>
    simp only [List.flatten_nil, List.nil_append, List.length_nil, Nat.add_zero]
    cases nodeLength position rest <;> rfl
  | cons part parts ih =>
    obtain ⟨hpart, hparts⟩ := List.forall_mem_cons.1 h
    rw [List.flatten_cons, List.append_assoc, nodeLength_part hpart, ih hparts, List.length_append,
      Nat.add_assoc]
    cases nodeLength (position + (part.length + parts.flatten.length)) rest with
    | error why => rfl
    | ok n => simp [Except.map]; omega

theorem noPart_of_mark {t : Text} (h : ∀ c ∈ t.head?, isMark c = true) : NoPart t := by
  rintro part hpart ⟨rest, rfl⟩
  obtain ⟨c, more, rfl, hc⟩ := hpart.head
  rw [h c rfl] at hc
  cases hc

/-- A text is made of parts of a node. -/
def HasParts (t : Text) : Prop := ∃ parts : List Text, (∀ part ∈ parts, NodePart part) ∧ t = parts.flatten

theorem NodePart.hasParts {part : Text} (h : NodePart part) : HasParts part :=
  ⟨[part], by simpa using h, by simp⟩

theorem hasParts_nameChars {t : Text} (h : ∀ c ∈ t, isNameChar c = true) : HasParts t := by
  refine ⟨t.map ([·]), fun part hpart => ?_, by rw [← List.flatMap_def]; simp⟩
  obtain ⟨c, hc, rfl⟩ := List.mem_map.1 hpart
  exact .name (h c hc)

theorem HasParts.append {t t' : Text} (h : HasParts t) (h' : HasParts t') : HasParts (t ++ t') := by
  obtain ⟨parts, hparts, rfl⟩ := h
  obtain ⟨parts', hparts', rfl⟩ := h'
  refine ⟨parts ++ parts', fun part hpart => ?_, List.flatten_append.symm⟩
  exact (List.mem_append.1 hpart).elim (hparts part) (hparts' part)

theorem HasParts.piece {t rest : Text} (h : HasParts t) (hne : t ≠ []) (hrest : NoPart rest) :
    Piece .node t rest := by
  obtain ⟨parts, hparts, rfl⟩ := h
  refine .node ?_ hparts hrest
  rintro rfl
  exact hne rfl

/-! ## Counts -/

theorem isSome_offset? (ranges : Text.Ranges) (c : Char) :
    (ranges.offset? c).isSome = ranges.contains c := by
  induction ranges with
  | nil => rfl
  | cons range ranges ih =>
    obtain ⟨lo, hi⟩ := range
    rw [Text.Ranges.offset?, Text.Ranges.contains]
    by_cases hlo : c.toNat < lo
    · simp [hlo]
    · by_cases hhi : c.toNat ≤ hi
      · simp [hlo, hhi]
      · simp [hlo, hhi, ih]

theorem isSome_digitValue? {c : Char} (h : isDecimal c = true) : (Text.digitValue? c).isSome := by
  rw [Text.digitValue?, Option.isSome_map, isSome_offset?]
  exact h

/-- A run of decimal digits is read as a number, unless it is too long. -/
theorem exists_number {digits : Text} (hne : digits ≠ []) (hdecimal : ∀ c ∈ digits, isDecimal c = true)
    (hlength : digits.length ≤ Text.maxNumberLength) : ∃ n, Text.number? digits = some n := by
  have hread : ∀ (t : Text) (n : Nat), (∀ c ∈ t, isDecimal c = true) →
      ∃ m, t.foldlM (fun n c => (Text.digitValue? c).map (n * 10 + ·)) n = some m := by
    intro t
    induction t with
    | nil => exact fun n _ => ⟨n, rfl⟩
    | cons c t ih =>
      intro n h
      obtain ⟨hc, ht⟩ := List.forall_mem_cons.1 h
      obtain ⟨value, hvalue⟩ := Option.isSome_iff_exists.1 (isSome_digitValue? hc)
      obtain ⟨m, hm⟩ := ih (n * 10 + value) ht
      exact ⟨m, by simpa [hvalue] using hm⟩
  obtain ⟨n, hn⟩ := hread digits 0 hdecimal
  refine ⟨n, ?_⟩
  rw [Text.number?, if_neg (by simp [hne]; omega), hn]

/-- Digits that are not read as a number: one of them is not decimal, or there are too
many of them. -/
def Unreadable (digits : Text) : Prop :=
  (∃ c ∈ digits, isDecimal c = false) ∨ Text.maxNumberLength < digits.length

theorem number?_of_not_decimal {digits : Text} {c : Char} (hc : c ∈ digits) (hdecimal : isDecimal c = false) :
    Text.number? digits = none := by
  have hvalue : Text.digitValue? c = none := by
    rw [Text.digitValue?, Option.map_eq_none_iff, ← Option.not_isSome_iff_eq_none, isSome_offset?]
    simpa [isDecimal] using hdecimal
  have hread : ∀ (t : Text) (n : Nat), c ∈ t →
      t.foldlM (fun n c => (Text.digitValue? c).map (n * 10 + ·)) n = none := by
    intro t
    induction t with
    | nil => simp
    | cons d t ih =>
      intro n hmem
      rw [List.foldlM_cons]
      cases hd : Text.digitValue? d with
      | none => rfl
      | some value =>
        rcases List.mem_cons.1 hmem with rfl | hmem
        · rw [hvalue] at hd
          cases hd
        · exact ih _ hmem
  rw [Text.number?]
  split
  · rfl
  · exact hread digits 0 hc

theorem number?_eq_none_iff {digits : Text} : 
    digits ≠ [] ∧ Text.number? digits = none ↔ Unreadable digits := by
  constructor
  · rintro ⟨hne, hnone⟩
    by_contra hread
    rw [Unreadable, not_or, Nat.not_lt] at hread
    obtain ⟨n, hn⟩ := exists_number hne (fun c hc => by simpa using fun h => hread.1 ⟨c, hc, h⟩) hread.2
    rw [hn] at hnone
    cases hnone
  · rintro (⟨c, hc, hdecimal⟩ | hlong)
    · exact ⟨List.ne_nil_of_mem hc, number?_of_not_decimal hc hdecimal⟩
    · refine ⟨?_, by rw [Text.number?, if_pos (by simp [hlong])]⟩
      rintro rfl
      exact absurd hlong (by decide)

/-! ## Pieces -/

theorem isBlockBracket_of_mark {c : Char} (h : isMark c = true) : isBlockBracket c = false := by
  simp only [isMark, List.contains_iff_mem, List.mem_cons, List.not_mem_nil, or_false] at h
  rcases h with rfl | rfl | rfl | rfl | rfl | rfl <;> decide

/-- A piece begins with a mark, or else with a part of a node. -/
theorem Piece.head {kind : TokenKind} {value rest : Text} (h : Piece kind value rest) :
    (kind ≠ .node ∧ ∃ c more, value = c :: more ∧ isMark c = true) ∨
      (kind = .node ∧ ∃ part more, value = part ++ more ∧ NodePart part) := by
  cases h with
  | operator hc => rcases hc with rfl | rfl <;> exact .inl ⟨by simp, _, _, rfl, by decide⟩
  | climb _ => exact .inl ⟨by simp, _, _, rfl, by decide⟩
  | opening => exact .inl ⟨by simp, _, _, rfl, by decide⟩
  | closing => exact .inl ⟨by simp, _, _, rfl, by decide⟩
  | repetition _ _ => exact .inl ⟨by simp, _, _, rfl, by decide⟩
  | @node parts rest hne hparts _ =>
    obtain ⟨part, parts, rfl⟩ := List.exists_cons_of_ne_nil hne
    exact .inr ⟨rfl, part, parts.flatten, rfl, hparts part List.mem_cons_self⟩

theorem Piece.value_ne_nil {kind : TokenKind} {value rest : Text} (h : Piece kind value rest) :
    value ≠ [] := by
  rcases h.head with ⟨-, c, more, rfl, -⟩ | ⟨-, part, more, rfl, hpart⟩
  · simp
  · obtain ⟨c, inside, rfl, -⟩ := hpart.head
    simp

theorem checkCount_eq_ok_iff {digits : Text} :
    checkCount digits = .ok () ↔ digits = [] ∨ ∃ n ≤ maxRepeat, Text.number? digits = some n := by
  rw [checkCount]
  by_cases hd : digits = []
  · simp [hd]
  · rw [if_neg (by simpa using hd)]
    cases Text.number? digits with
    | none => simp [hd]
    | some n =>
      by_cases hn : maxRepeat < n
      · simp [hd, hn]
      · simp [hd, Nat.le_of_not_lt hn]

/-- A piece is the first token of a text that begins with it. -/
theorem tokensAt_piece {kind : TokenKind} {value rest : Text} (h : Piece kind value rest)
    (hrest : kind = .node → Stops isBlockBracket rest) (position : Nat) :
    tokensAt position (value ++ rest) =
      (tokensAt (position + value.length) rest).map (⟨kind, value⟩ :: ·) := by
  cases h with
  | operator hc => rcases hc with rfl | rfl <;> rw [List.cons_append, tokensAt] <;> simp
  | @climb more rest hrun =>
    rw [List.cons_append, tokensAt]
    simp [hrun.takeWhile_eq, Nat.add_assoc, Nat.add_comm 1]
  | opening => rw [List.cons_append, tokensAt]; simp
  | closing => rw [List.cons_append, tokensAt]; simp
  | @repetition digits rest hrun hcount =>
    rw [List.cons_append, tokensAt]
    simp [hrun.takeWhile_eq, checkCount_eq_ok_iff.2 hcount, Nat.add_assoc, Nat.add_comm 1]
  | @node parts rest hne hparts hnone =>
    have hlength := nodeLength_parts hparts position rest
    rcases nodeLength_of_noPart hnone (position + parts.flatten.length) with ⟨-, hzero⟩ | ⟨hbroken, -⟩
    · obtain ⟨c, more, heq, hmark⟩ := flatten_head hne hparts
      simp only [isMark, List.contains_iff_mem, List.mem_cons, List.not_mem_nil, or_false, not_or,
        Bool.eq_false_iff, ne_eq] at hmark
      rw [hzero, heq, List.cons_append] at hlength
      rw [heq, List.cons_append, tokensAt]
      simp [hmark, hlength, Except.map, Nat.add_assoc]
    · exact absurd (hrest rfl) hbroken

/-! ## Cuts -/

/-- Where the parts of a node end in a text that is cut, a mark follows. -/
theorem Cut.mark_of_noPart {t : Text} {tokens : List Token} (h : Cut t tokens) (hnone : NoPart t) :
    ∀ c ∈ t.head?, isMark c = true := by
  cases h with
  | nil => simp
  | cons hpiece _ =>
    rcases hpiece.head with ⟨-, c, more, rfl, hmark⟩ | ⟨-, part, more, rfl, hpart⟩
    · intro d hd
      obtain rfl : c = d := by simpa using hd
      exact hmark
    · exact absurd (by simp) (hnone part hpart)

/-- What is cut does not begin with a broken block. -/
theorem Cut.stops {t : Text} {tokens : List Token} (h : Cut t tokens) (hnone : NoPart t) :
    Stops isBlockBracket t :=
  fun c hc => isBlockBracket_of_mark (h.mark_of_noPart hnone c hc)

theorem isDigit_of_mark {c : Char} (h : isMark c = true) : isDigit c = false := by
  simp only [isMark, List.contains_iff_mem, List.mem_cons, List.not_mem_nil, or_false] at h
  rcases h with rfl | rfl | rfl | rfl | rfl | rfl <;> decide

/-- A piece may have another mark behind it in the place of what is there, but a climb
would go on. -/
theorem Piece.of_head {kind : TokenKind} {value rest rest' : Text} {tokens : List Token}
    (h : Piece kind value rest) (hcut : Cut rest tokens)
    (hhead : rest'.head? = rest.head? ∨ ∃ c ∈ rest'.head?, isMark c = true ∧ c ≠ '^') :
    Piece kind value rest' := by
  have hstops {p : Char → Bool} (hp : ∀ c, isMark c = true → c ≠ '^' → p c = false)
      (hstops : Stops p rest) : Stops p rest' := by
    rcases hhead with hhead | ⟨c, hhead, hmark, hc⟩
    · rw [Stops, hhead]
      exact hstops
    · rw [Stops, Option.mem_def.1 hhead]
      simpa using hp c hmark hc
  cases h with
  | operator hc => exact .operator hc
  | climb hrun => exact .climb ⟨hrun.all, hstops (fun c _ hc => by simpa using hc) hrun.stops⟩
  | opening => exact .opening
  | closing => exact .closing
  | repetition hrun hcount =>
    exact .repetition ⟨hrun.all, hstops (fun c hmark _ => isDigit_of_mark hmark) hrun.stops⟩ hcount
  | node hne hparts hnone =>
    refine .node hne hparts (noPart_of_mark ?_)
    rcases hhead with hhead | ⟨c, hhead, hmark, -⟩
    · rw [hhead]
      exact hcut.mark_of_noPart hnone
    · rw [Option.mem_def.1 hhead]
      simpa using hmark

/-- A piece stays one when what stands behind it is cut off. -/
theorem Piece.of_append {kind : TokenKind} {value rest more : Text}
    (h : Piece kind value (rest ++ more)) : Piece kind value rest := by
  have hstops {p : Char → Bool} (hstops : Stops p (rest ++ more)) : Stops p rest := by
    cases rest with
    | nil => exact Text.stops_nil p
    | cons c rest => exact hstops
  generalize htext : rest ++ more = t at h
  cases h with
  | operator hc => exact .operator hc
  | climb hrun => exact .climb ⟨hrun.all, hstops (htext ▸ hrun.stops)⟩
  | opening => exact .opening
  | closing => exact .closing
  | repetition hrun hcount => exact .repetition ⟨hrun.all, hstops (htext ▸ hrun.stops)⟩ hcount
  | node hne hparts hnone =>
    refine .node hne hparts fun part hpart hprefix => hnone part hpart ?_
    rw [← htext]
    exact hprefix.trans (List.prefix_append rest more)

theorem tokensAt_of_cut {t : Text} {tokens : List Token} (h : Cut t tokens) (position : Nat) :
    tokensAt position t = .ok tokens := by
  induction h generalizing position with
  | nil => rw [tokensAt]
  | @cons kind value rest tokens hpiece hcut ih =>
    have hstops : kind = .node → Stops isBlockBracket rest := by
      rintro rfl
      cases hpiece with
      | node _ _ hnone => exact hcut.stops hnone
    rw [tokensAt_piece hpiece hstops, ih]
    rfl

/-- The digits of a repetition cannot be read as a number. -/
def HasUnreadableCount (t : Text) : Prop :=
  ∃ lead rest, t = lead ++ '*' :: rest ∧ rest.takeWhile isDigit ≠ [] ∧
    Text.number? (rest.takeWhile isDigit) = none

/-- Pieces lead up to a repetition, and its digits are not read as a number. -/
def StopsAtCount (t digits : Text) : Prop :=
  ∃ lead tokens rest, t = lead ++ '*' :: (digits ++ rest) ∧ Cut lead tokens ∧
    Run isDigit digits rest ∧ Unreadable digits

theorem StopsAtCount.hasUnreadableCount {t digits : Text} (h : StopsAtCount t digits) :
    HasUnreadableCount t := by
  obtain ⟨lead, tokens, rest, rfl, -, hrun, hunreadable⟩ := h
  refine ⟨lead, digits ++ rest, rfl, ?_⟩
  rw [hrun.takeWhile_eq]
  exact number?_eq_none_iff.2 hunreadable

theorem StopsAtCount.cons {kind : TokenKind} {value rest digits : Text} (h : StopsAtCount rest digits)
    (hpiece : Piece kind value rest) : StopsAtCount (value ++ rest) digits := by
  obtain ⟨lead, tokens, behind, rfl, hcut, hrun, hunreadable⟩ := h
  exact ⟨value ++ lead, _, behind, by simp, .cons hpiece.of_append hcut, hrun, hunreadable⟩

/-- A text that is not empty begins with a piece, or there is a fault: it is malformed,
unless it begins with a count that cannot be read. -/
theorem piece_or_fault (c : Char) (rest : Text) (position : Nat) :
    (∃ kind value left, c :: rest = value ++ left ∧ Piece kind value left ∧
      (kind = .node → Stops isBlockBracket left)) ∨
    ∃ fault, tokensAt position (c :: rest) = .error fault ∧
      ((∃ why, fault = .malformed why) ∨
        ∃ digits, fault = .unreadableCount digits ∧ StopsAtCount (c :: rest) digits) := by
  by_cases hmark : isMark c = true
  · simp only [isMark, List.contains_iff_mem, List.mem_cons, List.not_mem_nil, or_false] at hmark
    rcases hmark with rfl | rfl | rfl | rfl | rfl | rfl
    · exact .inl ⟨_, _, rest, rfl, .operator (.inl rfl), by simp⟩
    · exact .inl ⟨_, _, rest, rfl, .operator (.inr rfl), by simp⟩
    · exact .inl ⟨_, '^' :: rest.takeWhile (· == '^'), rest.dropWhile (· == '^'), by simp,
        .climb (Text.run_takeWhile _ rest), by simp⟩
    · exact .inl ⟨_, _, rest, rfl, .opening, by simp⟩
    · exact .inl ⟨_, _, rest, rfl, .closing, by simp⟩
    · cases hcount : checkCount (rest.takeWhile isDigit) with
      | ok =>
        exact .inl ⟨_, '*' :: rest.takeWhile isDigit, rest.dropWhile isDigit, by simp,
          .repetition (Text.run_takeWhile _ rest) (checkCount_eq_ok_iff.1 hcount), by simp⟩
      | error fault =>
        refine .inr ⟨fault, by rw [tokensAt]; simp [hcount], ?_⟩
        rw [checkCount] at hcount
        split at hcount
        next => cases hcount
        next hne =>
          split at hcount
          next hnumber =>
            cases hcount
            exact .inr ⟨_, rfl, [], [], rest.dropWhile isDigit, by simp, .nil, Text.run_takeWhile _ rest,
              number?_eq_none_iff.1 ⟨by simpa using hne, hnumber⟩⟩
          next =>
            split at hcount <;> cases hcount
            exact .inl ⟨_, rfl⟩
  · rw [Bool.not_eq_true] at hmark
    obtain ⟨parts, left, heq, hparts, hnone⟩ := exists_parts (c :: rest)
    have hlength := nodeLength_parts hparts position left
    rw [← heq] at hlength
    have hdispatch := hmark
    simp only [isMark, List.contains_iff_mem, List.mem_cons, List.not_mem_nil, or_false, not_or,
      Bool.eq_false_iff, ne_eq] at hdispatch
    rcases nodeLength_of_noPart hnone (position + parts.flatten.length) with ⟨hstops, hzero⟩ | ⟨-, why, hwhy⟩
    · by_cases hne : parts = []
      · subst hne
        rw [hzero] at hlength
        exact .inr ⟨.malformed (.unexpected c position),
          by rw [tokensAt]; simp [hdispatch, hlength, Except.map], .inl ⟨_, rfl⟩⟩
      · exact .inl ⟨_, _, left, heq, .node hne hparts hnone, fun _ => hstops⟩
    · rw [hwhy] at hlength
      exact .inr ⟨.malformed why, by rw [tokensAt]; simp [hdispatch, hlength, Except.map], .inl ⟨_, rfl⟩⟩

/-- A text is cut, or there is a fault in it: it is malformed, unless its pieces lead up
to a count that cannot be read. -/
theorem cut_or_stops (t : Text) (position : Nat) :
    (∃ tokens, Cut t tokens) ∨
    ∃ fault, tokensAt position t = .error fault ∧
      ((∃ why, fault = .malformed why) ∨
        ∃ digits, fault = .unreadableCount digits ∧ StopsAtCount t digits) := by
  match t with
  | [] => exact .inl ⟨[], .nil⟩
  | c :: rest =>
    rcases piece_or_fault c rest position with ⟨kind, value, left, heq, hpiece, hstops⟩ | hfault
    · have hlt : left.length < (c :: rest).length := by
        have := List.length_pos_iff.2 hpiece.value_ne_nil
        rw [heq, List.length_append]
        omega
      rw [heq]
      rcases cut_or_stops left (position + value.length) with ⟨tokens, hcut⟩ | ⟨fault, hleft, hwhy⟩
      · exact .inl ⟨_, .cons hpiece hcut⟩
      · refine .inr ⟨fault, ?_, hwhy.imp_right fun ⟨digits, hdigits, hat⟩ => ⟨digits, hdigits, hat.cons hpiece⟩⟩
        rw [tokensAt_piece hpiece hstops, hleft]
        rfl
    · exact .inr hfault
termination_by t.length
decreasing_by exact hlt

theorem cut_or_fault (t : Text) (position : Nat) :
    (∃ tokens, Cut t tokens) ∨
    ∃ fault, tokensAt position t = .error fault ∧
      ((∃ why, fault = .malformed why) ∨ HasUnreadableCount t) :=
  (cut_or_stops t position).imp_right fun ⟨fault, hfault, hwhy⟩ =>
    ⟨fault, hfault, hwhy.imp_right fun ⟨_, _, hat⟩ => hat.hasUnreadableCount⟩

/-- Pieces that lead up to a repetition are read before it. -/
theorem tokensAt_lead {lead rest : Text} {tokens : List Token} (h : Cut lead tokens) (position : Nat) :
    tokensAt position (lead ++ '*' :: rest) =
      (tokensAt (position + lead.length) ('*' :: rest)).map (tokens ++ ·) := by
  induction h generalizing position with
  | nil =>
    simp only [List.nil_append, List.length_nil, Nat.add_zero]
    cases tokensAt position ('*' :: rest) <;> rfl
  | @cons kind value behind tokens hpiece hcut ih =>
    have hhead : (behind ++ '*' :: rest).head? = behind.head? ∨
        ∃ c ∈ (behind ++ '*' :: rest).head?, isMark c = true ∧ c ≠ '^' := by
      cases behind with
      | nil => exact .inr ⟨'*', rfl, by decide, by decide⟩
      | cons c behind => exact .inl rfl
    have hbehind := hpiece.of_head hcut hhead
    have hstops : kind = .node → Stops isBlockBracket (behind ++ '*' :: rest) := by
      rintro rfl c hc
      cases hpiece with
      | node _ _ hnone =>
        refine isBlockBracket_of_mark ?_
        rcases hhead with hhead | ⟨d, hd, hmark, -⟩
        · rw [hhead] at hc
          exact hcut.mark_of_noPart hnone c hc
        · obtain rfl := Option.mem_unique hc hd
          exact hmark
    rw [List.append_assoc, tokensAt_piece hbehind hstops, ih, List.length_append, Nat.add_assoc]
    cases tokensAt (position + (value.length + behind.length)) ('*' :: rest) <;> rfl

/-- The tokens of a text cannot be told just when its pieces lead up to a count that is
not read as a number. -/
theorem tokenize_eq_unreadable_iff {t digits : Text} :
    tokenize t = .error (.unreadableCount digits) ↔ StopsAtCount t digits := by
  constructor
  · intro h
    rcases cut_or_stops t 0 with ⟨tokens, hcut⟩ | ⟨fault, hfault, ⟨why, rfl⟩ | ⟨digits', rfl, hat⟩⟩
    · rw [tokenize, tokensAt_of_cut hcut] at h
      cases h
    · rw [tokenize, hfault] at h
      cases h
    · rw [tokenize, hfault] at h
      cases h
      exact hat
  · rintro ⟨lead, tokens, rest, rfl, hcut, hrun, hunreadable⟩
    obtain ⟨hne, hnumber⟩ := number?_eq_none_iff.2 hunreadable
    have hcount : checkCount digits = .error (.unreadableCount digits) := by
      rw [checkCount, if_neg (by simpa using hne), hnumber]
    rw [tokenize, tokensAt_lead hcut, tokensAt]
    simp [hrun.takeWhile_eq, hcount, Except.map]

theorem tokenize_eq_ok_iff {t : Text} {tokens : List Token} : tokenize t = .ok tokens ↔ Cut t tokens := by
  refine ⟨fun h => ?_, fun h => tokensAt_of_cut h 0⟩
  rcases cut_or_fault t 0 with ⟨tokens', hcut⟩ | ⟨fault, hfault, -⟩
  · have heq := tokensAt_of_cut hcut 0
    rw [tokenize, heq, Except.ok.injEq] at h
    exact h ▸ hcut
  · rw [tokenize, hfault] at h
    cases h

theorem Cut.flatMap_value {t : Text} {tokens : List Token} (h : Cut t tokens) :
    tokens.flatMap (·.value) = t := by
  induction h with
  | nil => rfl
  | cons _ _ ih => rw [List.flatMap_cons, ih]

theorem Cut.value_ne_nil {t : Text} {tokens : List Token} (h : Cut t tokens) :
    ∀ token ∈ tokens, token.value ≠ [] := by
  induction h with
  | nil => simp
  | cons hpiece _ ih => exact List.forall_mem_cons.2 ⟨hpiece.value_ne_nil, ih⟩

/-- Two nodes do not stand side by side. -/
theorem Cut.isChain {t : Text} {tokens : List Token} (h : Cut t tokens) :
    tokens.IsChain fun token next => ¬ (token.kind = .node ∧ next.kind = .node) := by
  induction h with
  | nil => exact .nil
  | @cons kind value rest tokens hpiece hcut ih =>
    cases hcut with
    | nil => exact .singleton _
    | @cons kind' value' rest' tokens' hpiece' _ =>
      refine .cons_cons ?_ ih
      rintro ⟨rfl, rfl⟩
      cases hpiece with
      | node _ _ hnone =>
        rcases hpiece'.head with ⟨hkind, -⟩ | ⟨-, part, more, rfl, hpart⟩
        · exact hkind rfl
        · exact hnone part hpart (by simp)

/-- **The tokens of a text are its pieces.** Where every digit is decimal and no repeat count
is longer than what is read as a number, a text is cut into tokens exactly when it is a
sequence of pieces, each as long as it can be, and the tokens are these pieces in their
order; any other text is malformed. The tokens take up the whole text, none of them is
empty, and no two nodes stand side by side. -/
theorem tokenize_iff_cut {t : Text} (hdecimal : ∀ c ∈ t, isDigit c = true → isDecimal c = true)
    (hlength : ∀ lead rest, t = lead ++ '*' :: rest →
      (rest.takeWhile isDigit).length ≤ Text.maxNumberLength) :
    (∀ tokens, tokenize t = .ok tokens ↔ Cut t tokens) ∧
    ((∃ why, tokenize t = .error (.malformed why)) ↔ ¬ ∃ tokens, Cut t tokens) ∧
    ∀ tokens, Cut t tokens →
      tokens.flatMap (·.value) = t ∧ (∀ token ∈ tokens, token.value ≠ []) ∧
      tokens.IsChain fun token next => ¬ (token.kind = .node ∧ next.kind = .node) := by
  refine ⟨fun tokens => tokenize_eq_ok_iff, ?_, fun tokens hcut =>
    ⟨hcut.flatMap_value, hcut.value_ne_nil, hcut.isChain⟩⟩
  have hreadable : ¬ HasUnreadableCount t := by
    rintro ⟨lead, rest, rfl, hne, hnumber⟩
    have hdigits : ∀ c ∈ rest.takeWhile isDigit, isDecimal c = true := by
      intro c hc
      have hmem : c ∈ rest := (List.takeWhile_sublist isDigit).subset hc
      exact hdecimal c (by simp [hmem]) ((Text.run_takeWhile isDigit rest).all c hc)
    obtain ⟨n, hn⟩ := exists_number hne hdigits (hlength lead rest rfl)
    rw [hn] at hnumber
    cases hnumber
  constructor
  · rintro ⟨why, hwhy⟩ ⟨tokens, hcut⟩
    rw [tokenize_eq_ok_iff.2 hcut] at hwhy
    cases hwhy
  · intro hnone
    rcases cut_or_fault t 0 with hcut | ⟨fault, hfault, ⟨why, rfl⟩ | hunreadable⟩
    · exact absurd hcut hnone
    · exact ⟨why, hfault⟩
    · exact absurd hunreadable hreadable

/-- A bracket in a string, a count, a climb of two levels, an escaped operator and nested
braces: four pieces. -/
theorem tokenize_iff_cut_blocks :
    let t := "a[b=\"]\"]*12^^p\\>\x7bc\x7bd\x7d\x7d".toList
    let tokens : List Token :=
      [⟨.node, "a[b=\"]\"]".toList⟩, ⟨.repetition, "*12".toList⟩, ⟨.operator, "^^".toList⟩,
       ⟨.node, "p\\>\x7bc\x7bd\x7d\x7d".toList⟩]
    (∀ c ∈ t, isDigit c = true → isDecimal c = true) ∧
    (∀ lead rest, t = lead ++ '*' :: rest →
      (rest.takeWhile isDigit).length ≤ Text.maxNumberLength) ∧
    Cut t tokens ∧ tokens.flatMap (·.value) = t := by
  intro t tokens
  have hdecimal : ∀ c ∈ t, isDigit c = true → isDecimal c = true := by
    have hall : t.all (fun c => !isDigit c || isDecimal c) = true := by decide +kernel
    intro c hc hdigit
    simpa [hdigit] using List.all_eq_true.1 hall c hc
  have hlength : ∀ lead rest, t = lead ++ '*' :: rest →
      (rest.takeWhile isDigit).length ≤ Text.maxNumberLength := by
    intro lead rest heq
    have hle : (rest.takeWhile isDigit).length ≤ rest.length := (List.takeWhile_sublist isDigit).length_le
    have ht : t.length = lead.length + (rest.length + 1) := by rw [heq]; simp
    have hmost : t.length ≤ Text.maxNumberLength := by decide +kernel
    omega
  obtain ⟨haccepts, -, hcut⟩ := tokenize_iff_cut hdecimal hlength
  have htokens : Cut t tokens := (haccepts tokens).1 (by decide +kernel)
  exact ⟨hdecimal, hlength, htokens, (hcut tokens htokens).1⟩

end Shorthand.Abbreviation
