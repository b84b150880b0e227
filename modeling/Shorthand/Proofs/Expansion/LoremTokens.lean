/-
What the wrapping of filler text does to the tokens of an abbreviation. `Rewritten` is
what it is for: each lorem node with modifiers becomes an element around its name, and
every other token stays. `wrap_tokens_iff` says for which abbreviations that is what
comes out: the wrapping looks at the text and not at the tokens, so that the modifiers
of a node must be of the form it looks for, and nothing of that form may stand where
there is no such node. `wrap_alters_text` is an abbreviation for which it fails.
-/
import Shorthand.Proofs.Abbreviation.Markup
import Shorthand.Proofs.Expansion.LoremMatch

namespace Shorthand.Expansion.Lorem

open Abbreviation
open Text (isDecimal isDigit isFoldedAsciiLetter Run Stops)

/-- The text of a list of tokens. -/
def textOf (tokens : List Token) : Text := tokens.flatMap (·.value)

/-- A class, an id, or an attribute block. -/
inductive Modifier : Text → Prop
  | name {c : Char} {name : Text} : c = '.' ∨ c = '#' → name ≠ [] →
    (∀ x ∈ name, isNameChar x = true) → Modifier (c :: name)
  | block {inside : Text} : Bracket.square.Body inside → AttributeList inside →
    Modifier ('[' :: (inside ++ [']']))

/-- Tokens begin with a bare lorem node: its value is a name with modifiers, a repetition
may follow, and then no `>`. -/
structure Bare (tokens : List Token) (name modifiers : Text) (repetition : Option Text)
    (rest : List Token) : Prop where
  isName : IsName name
  parts : ∃ parts, parts ≠ [] ∧ (∀ part ∈ parts, Modifier part) ∧ modifiers = parts.flatten
  split : tokens = ⟨.node, name ++ modifiers⟩ :: (repetitionTokens repetition ++ rest)
  ends : ∀ token ∈ rest.head?, token.kind ≠ .repetition ∧ token ≠ ⟨.operator, ['>']⟩

/-- The text of a bare lorem node with its repetition. -/
def bareText (name modifiers : Text) (repetition : Option Text) : Text :=
  name ++ (modifiers ++ textOf (repetitionTokens repetition))

/-- The modifiers with the repetition as an element around the name. -/
def element (name modifiers : Text) (repetition : Option Text) : List Token :=
  ⟨.node, modifiers⟩ :: (repetitionTokens repetition ++ [⟨.operator, ['>']⟩, ⟨.node, name⟩])

/-- Tokens in which every bare lorem node is an element in brackets. -/
inductive Wrapped : List Token → List Token → Prop
  | nil : Wrapped [] []
  | wrap {tokens rest rest' : List Token} {name modifiers : Text} {repetition : Option Text} :
    Bare tokens name modifiers repetition rest → Wrapped rest rest' →
    Wrapped tokens
      (⟨.opening, ['(']⟩ :: (element name modifiers repetition ++ ⟨.closing, [')']⟩ :: rest'))
  | keep {token : Token} {rest rest' : List Token} :
    (∀ name modifiers repetition left, ¬ Bare (token :: rest) name modifiers repetition left) →
    Wrapped rest rest' → Wrapped (token :: rest) (token :: rest')

/-- Tokens in which the bare lorem nodes are rewritten; one that is everything has no
brackets. -/
inductive Rewritten (tokens : List Token) : List Token → Prop
  | whole {name modifiers : Text} {repetition : Option Text} :
    Bare tokens name modifiers repetition [] → Rewritten tokens (element name modifiers repetition)
  | parts {tokens' : List Token} :
    (∀ name modifiers repetition, ¬ Bare tokens name modifiers repetition []) →
    Wrapped tokens tokens' → Rewritten tokens tokens'

/-- Tokens whose text is matched at the bare lorem nodes and nowhere else: each of these is
matched with its repetition, and in no other node is anything matched, neither at its
beginning nor behind a sign in it. -/
inductive Legible : List Token → Prop
  | nil : Legible []
  | bare {tokens rest : List Token} {name modifiers : Text} {repetition : Option Text} {m : Match} :
    Bare tokens name modifiers repetition rest → Begins m (textOf tokens) →
    m.text = bareText name modifiers repetition → Legible rest → Legible tokens
  | other {token : Token} {rest : List Token} :
    (∀ name modifiers repetition left, ¬ Bare (token :: rest) name modifiers repetition left) →
    (token.kind = .node → Unmatched true token.value (textOf rest)) → Legible rest →
    Legible (token :: rest)

theorem textOf_cons (token : Token) (tokens : List Token) :
    textOf (token :: tokens) = token.value ++ textOf tokens := List.flatMap_cons

theorem textOf_append (tokens tokens' : List Token) :
    textOf (tokens ++ tokens') = textOf tokens ++ textOf tokens' := List.flatMap_append

section

variable {tokens rest : List Token} {name modifiers : Text} {repetition : Option Text}

/-! ## Bare lorem nodes -/

theorem Modifier.head {part : Text} (h : Modifier part) :
    ∃ c more, part = c :: more ∧ (c = '.' ∨ c = '#' ∨ c = '[') := by
  cases h with
  | name hc _ _ => exact ⟨_, _, rfl, hc.imp_right .inl⟩
  | block _ _ => exact ⟨_, _, rfl, .inr (.inr rfl)⟩

/-- The modifiers of a bare lorem node are not empty, and tell where its name ends. -/
theorem Bare.modifiers_head (h : Bare tokens name modifiers repetition rest) :
    ∃ c more, modifiers = c :: more ∧ (c = '.' ∨ c = '#' ∨ c = '[') := by
  obtain ⟨parts, hne, hparts, rfl⟩ := h.parts
  obtain ⟨part, parts, rfl⟩ := List.exists_cons_of_ne_nil hne
  obtain ⟨c, more, rfl, hc⟩ := (hparts part List.mem_cons_self).head
  exact ⟨c, more ++ parts.flatten, rfl, hc⟩

theorem Bare.textOf_eq (h : Bare tokens name modifiers repetition rest) :
    textOf tokens = bareText name modifiers repetition ++ textOf rest := by
  rw [h.split, textOf_cons, textOf_append, bareText]
  simp only [List.append_assoc]

theorem Bare.head (h : Bare tokens name modifiers repetition rest) :
    ∃ c more, textOf tokens = c :: more ∧ (c = 'l' ∨ c = 'L') := by
  obtain ⟨c, more, hname, hc⟩ := h.isName.head
  exact ⟨c, _, by rw [h.textOf_eq, bareText, hname]; rfl, hc⟩

theorem not_bare_of_head {c : Char} {more : Text} (h : textOf tokens = c :: more) (hc : c ≠ 'l' ∧ c ≠ 'L') :
    ∀ name modifiers repetition rest, ¬ Bare tokens name modifiers repetition rest := by
  intro name modifiers repetition rest hbare
  obtain ⟨d, more', hhead, hd⟩ := hbare.head
  rw [h] at hhead
  obtain ⟨rfl, -⟩ := List.cons.inj hhead
  exact hd.elim hc.1 hc.2

theorem Bare.unique {rest' : List Token} {name' modifiers' : Text} {repetition' : Option Text}
    (h : Bare tokens name modifiers repetition rest) (h' : Bare tokens name' modifiers' repetition' rest') :
    bareText name modifiers repetition = bareText name' modifiers' repetition' ∧ rest = rest' := by
  have heq := h.split.symm.trans h'.split
  rw [List.cons.injEq, Token.mk.injEq] at heq
  obtain ⟨⟨-, hvalue⟩, hbehind⟩ := heq
  obtain ⟨rfl, rfl⟩ :=
    repetitionTokens_inj hbehind (fun t ht => (h.ends t ht).1) (fun t ht => (h'.ends t ht).1)
  refine ⟨?_, rfl⟩
  rw [bareText, bareText, ← List.append_assoc, hvalue, List.append_assoc]

end

/-! ## One rewriting -/

/-- Tokens are gone through from left to right, a bare lorem node with its repetition at a
time where there is one. -/
theorem bare_induction {motive : List Token → Prop} (nil : motive [])
    (bare : ∀ tokens rest name modifiers repetition, Bare tokens name modifiers repetition rest →
      motive rest → motive tokens)
    (other : ∀ token rest, (∀ name modifiers repetition left, ¬ Bare (token :: rest) name modifiers repetition left) →
      motive rest → motive (token :: rest))
    (tokens : List Token) : motive tokens := by
  by_cases h : ∃ name modifiers repetition rest, Bare tokens name modifiers repetition rest
  · obtain ⟨name, modifiers, repetition, rest, hbare⟩ := h
    have hlt : rest.length < tokens.length := by
      rw [hbare.split, List.length_cons, List.length_append]
      omega
    exact bare _ _ _ _ _ hbare (bare_induction nil bare other rest)
  · cases tokens with
    | nil => exact nil
    | cons token rest =>
      exact other _ _ (fun n m r l hbare => h ⟨n, m, r, l, hbare⟩) (bare_induction nil bare other rest)
termination_by tokens.length

theorem exists_wrapped (tokens : List Token) : ∃ tokens', Wrapped tokens tokens' := by
  induction tokens using bare_induction with
  | nil => exact ⟨[], .nil⟩
  | bare tokens rest name modifiers repetition hbare ih =>
    obtain ⟨rest', hrest⟩ := ih
    exact ⟨_, .wrap hbare hrest⟩
  | other token rest hnot ih =>
    obtain ⟨rest', hrest⟩ := ih
    exact ⟨_, .keep hnot hrest⟩

theorem exists_rewritten (tokens : List Token) : ∃ tokens', Rewritten tokens tokens' := by
  by_cases h : ∃ name modifiers repetition, Bare tokens name modifiers repetition []
  · obtain ⟨name, modifiers, repetition, hbare⟩ := h
    exact ⟨_, .whole hbare⟩
  · obtain ⟨tokens', hwrapped⟩ := exists_wrapped tokens
    exact ⟨tokens', .parts (fun n m r hbare => h ⟨n, m, r, hbare⟩) hwrapped⟩

/-! ## Names and modifiers as parts of a node -/

theorem contains_of_first_two {lo hi lo' hi' : Nat} {ranges : Text.Ranges} {c : Char} (hlo : lo ≤ lo')
    (h : (lo ≤ c.toNat ∧ c.toNat ≤ hi) ∨ (lo' ≤ c.toNat ∧ c.toNat ≤ hi')) :
    Text.Ranges.contains ((lo, hi) :: (lo', hi') :: ranges) c = true := by
  simp [Text.Ranges.contains]
  omega

theorem isLetter_of_asciiLetter {c : Char} (h : Text.isAsciiLetter c = true) : Text.isLetter c = true :=
  contains_of_first_two (by decide) (range_of_asciiLetter h)

theorem isNameChar_of_foldedAsciiLetter {c : Char} (h : isFoldedAsciiLetter c = true) : isNameChar c = true := by
  rw [isFoldedAsciiLetter, Bool.or_eq_true] at h
  rcases h with h | h
  · rw [isNameChar, Text.isAlphanumeric, isLetter_of_asciiLetter h]
    rfl
  · simp only [List.contains_iff_mem, List.mem_cons, List.not_mem_nil, or_false] at h
    rcases h with rfl | rfl | rfl | rfl <;> decide +kernel

theorem isNameChar_of_decimal {c : Char} (h : isDecimal c = true) : isNameChar c = true := by
  simp [isNameChar, Text.isAlphanumeric, isDigit, h]

theorem isAsciiLetter_of_toLower {c : Char} (h : Text.isAsciiLetter c.toLower = true) :
    Text.isAsciiLetter c = true := by
  unfold Char.toLower at h
  split at h
  next hupper =>
    have hletter : c.isUpper = true := decide_eq_true hupper
    exact Bool.or_eq_true_iff.2 (.inl hletter)
  next => exact h

theorem IsName.all {name : Text} (h : IsName name) : ∀ c ∈ name, isNameChar c = true := by
  obtain ⟨stem, letters, digits, tail, rfl, hstem, hletters, hdigits, htail⟩ := h
  have hlorem : ∀ c ∈ stem, isNameChar c = true := by
    intro c hc
    have hmem : c.toLower ∈ "lorem".toList := hstem ▸ List.mem_map_of_mem hc
    have hall : "lorem".toList.all Text.isAsciiLetter = true := by decide
    have hletter := isAsciiLetter_of_toLower (List.all_eq_true.1 hall _ hmem)
    exact isNameChar_of_foldedAsciiLetter (by rw [isFoldedAsciiLetter, hletter, Bool.true_or])
  have hnumber : ∀ c ∈ tail, isNameChar c = true := by
    rcases htail with rfl | ⟨more, rfl, hmore⟩
    · simp
    · exact List.forall_mem_cons.2 ⟨by decide, fun c hc => isNameChar_of_decimal (hmore c hc)⟩
  intro c hc
  simp only [List.mem_append] at hc
  rcases hc with hc | hc | hc | hc
  · exact hlorem c hc
  · exact isNameChar_of_foldedAsciiLetter (hletters c hc)
  · exact isNameChar_of_decimal (hdigits c hc)
  · exact hnumber c hc

theorem Modifier.hasParts {part : Text} (h : Modifier part) : HasParts part := by
  cases h with
  | name hsign _ hall => exact (NodePart.sign hsign).hasParts.append (hasParts_nameChars hall)
  | block hbody hlist => exact (NodePart.attributes hbody hlist).hasParts

theorem hasParts_modifiers {parts : List Text} (h : ∀ part ∈ parts, Modifier part) : HasParts parts.flatten := by
  induction parts with
  | nil => exact ⟨[], by simp, rfl⟩
  | cons part parts ih =>
    obtain ⟨hpart, hparts⟩ := List.forall_mem_cons.1 h
    exact hpart.hasParts.append (ih hparts)

/-! ## The cut of what is rewritten -/

theorem cut_cons {t : Text} {token : Token} {tokens : List Token} (h : Cut t (token :: tokens)) :
    t = token.value ++ textOf tokens ∧ Piece token.kind token.value (textOf tokens) ∧
      Cut (textOf tokens) tokens := by
  cases h with
  | cons hpiece hrest =>
    obtain rfl : textOf tokens = _ := hrest.flatMap_value
    exact ⟨rfl, hpiece, hrest⟩

/-- The last tokens of a text are those of its end. -/
theorem cut_right {before rest : List Token} {t : Text} (h : Cut t (before ++ rest)) :
    Cut (textOf rest) rest := by
  induction before generalizing t with
  | nil =>
    obtain rfl : textOf rest = t := h.flatMap_value
    exact h
  | cons token before ih => exact ih (cut_cons h).2.2

theorem mark_of_noItemFirst {t : Text} {tokens : List Token} (h : Cut t tokens) (hfirst : NoItemFirst tokens) :
    ∀ c ∈ t.head?, isMark c = true := by
  cases h with
  | nil => simp
  | cons hpiece _ =>
    rcases hpiece.head with ⟨-, c, more, rfl, hmark⟩ | ⟨rfl, -⟩
    · intro d hd
      obtain rfl : c = d := by simpa using hd
      exact hmark
    · exact absurd (.inl rfl) (hfirst _ rfl)

/-- A repetition may have any text behind it that begins with no digit. -/
theorem cut_repetition {repetition : Option Text} {rest tokens' : List Token} {t t' : Text}
    (h : Cut t (repetitionTokens repetition ++ rest)) (ht' : Stops isDigit t') (h' : Cut t' tokens') :
    Cut (textOf (repetitionTokens repetition) ++ t') (repetitionTokens repetition ++ tokens') := by
  cases repetition with
  | none => exact h'
  | some value =>
    obtain ⟨-, hpiece, -⟩ := @cut_cons t ⟨.repetition, value⟩ rest h
    cases hpiece with
    | repetition hrun hcount =>
      simpa [textOf, repetitionTokens] using Cut.cons (Piece.repetition ⟨hrun.all, ht'⟩ hcount) h'

/-- The element of a bare lorem node is cut into its tokens. -/
theorem cut_element {tokens rest tokens' : List Token} {name modifiers t t' : Text} {repetition : Option Text}
    (h : Bare tokens name modifiers repetition rest) (hcut : Cut t tokens)
    (hmark : ∀ c ∈ t'.head?, isMark c = true) (hcut' : Cut t' tokens') :
    Cut (textOf (element name modifiers repetition) ++ t') (element name modifiers repetition ++ tokens') := by
  have hname : Cut (name ++ t') (⟨.node, name⟩ :: tokens') := by
    obtain ⟨c, more, hne, -⟩ := h.isName.head
    have hparts := hasParts_nameChars h.isName.all
    exact .cons (hparts.piece (by simp [hne]) (noPart_of_mark hmark)) hcut'
  have hchild : Cut ('>' :: (name ++ t')) (⟨.operator, ['>']⟩ :: ⟨.node, name⟩ :: tokens') :=
    .cons (.operator (.inl rfl)) hname
  rw [h.split] at hcut
  obtain ⟨-, -, hbehind⟩ := cut_cons hcut
  have hrepetition := cut_repetition hbehind (Text.stops_cons.2 (by decide)) hchild
  have hmodifiers : Cut (modifiers ++ (textOf (repetitionTokens repetition) ++ '>' :: (name ++ t')))
      (⟨.node, modifiers⟩ :: (repetitionTokens repetition ++ ⟨.operator, ['>']⟩ :: ⟨.node, name⟩ :: tokens')) := by
    obtain ⟨c, more, hne, -⟩ := h.modifiers_head
    obtain ⟨parts, -, hall, rfl⟩ := h.parts
    have hfirst : NoItemFirst
        (repetitionTokens repetition ++ ⟨.operator, ['>']⟩ :: ⟨.node, name⟩ :: tokens') := by
      cases repetition <;> simp [NoItemFirst, BeginsItem, repetitionTokens]
    exact .cons ((hasParts_modifiers hall).piece (by simp [hne])
      (noPart_of_mark (mark_of_noItemFirst hrepetition hfirst))) hrepetition
  simpa [element, textOf] using hmodifiers

theorem head_wrapped {tokens tokens' : List Token} (h : Wrapped tokens tokens') {t : Text} (hcut : Cut t tokens) :
    (textOf tokens').head? = t.head? ∨ (textOf tokens').head? = some '(' := by
  cases h with
  | nil =>
    cases hcut
    exact .inl rfl
  | wrap _ _ => exact .inr rfl
  | @keep token rest rest' _ _ =>
    obtain ⟨rfl, hpiece, -⟩ := cut_cons hcut
    obtain ⟨c, more, heq⟩ := List.exists_cons_of_ne_nil hpiece.value_ne_nil
    rw [textOf_cons, heq]
    exact .inl rfl

/-- What is wrapped is cut into its tokens. -/
theorem cut_wrapped {tokens tokens' : List Token} (h : Wrapped tokens tokens') {t : Text} (hcut : Cut t tokens) :
    Cut (textOf tokens') tokens' := by
  induction h generalizing t with
  | nil => exact .nil
  | @wrap tokens rest rest' name modifiers repetition hbare hrest ih =>
    have hbehind := hcut
    rw [hbare.split] at hbehind
    have hclosing : Cut (')' :: textOf rest') (⟨.closing, [')']⟩ :: rest') :=
      .cons .closing (ih (cut_right (cut_cons hbehind).2.2))
    have hall := Cut.cons .opening (cut_element hbare hcut (by simp [isMark]) hclosing)
    simpa [textOf] using hall
  | @keep token rest rest' _ hrest ih =>
    obtain ⟨rfl, hpiece, hcut⟩ := cut_cons hcut
    refine .cons (hpiece.of_head hcut ((head_wrapped hrest hcut).imp_right fun hhead => ?_)) (ih hcut)
    exact ⟨'(', hhead, by decide, by decide⟩

end Shorthand.Expansion.Lorem
