/-
The wrapping of filler text on tokens. `wrap_tokens_iff` says for which abbreviations the
bare lorem nodes are rewritten and nothing else is, and `wrap_alters_text` that it is not
so for all.
-/
import Shorthand.Proofs.Expansion.LoremTokens

namespace Shorthand.Expansion.Lorem

open Abbreviation
open Text (isDecimal isDigit)

variable {whole : Nat} {begins : Bool}

theorem unmatched_of_forall {t rest : Text} (h : ∀ c ∈ t, c ≠ 'l' ∧ c ≠ 'L') : Unmatched begins t rest := by
  rintro before after rfl hne - m hm
  obtain ⟨c, more, rfl⟩ := List.exists_cons_of_ne_nil hne
  obtain ⟨d, hd, hl⟩ := hm.head
  obtain rfl : c = d := by simpa using hd
  obtain ⟨hlower, hupper⟩ := h c (by simp)
  exact hl.elim hlower hupper

theorem piece_chars {kind : TokenKind} {value rest : Text} (h : Piece kind value rest) (hkind : kind ≠ .node) :
    ∀ c ∈ value, c ≠ 'l' ∧ c ≠ 'L' := by
  cases h with
  | operator hc => rcases hc with rfl | rfl <;> simp
  | climb hrun =>
    refine List.forall_mem_cons.2 ⟨by decide, fun c hc => ?_⟩
    obtain rfl : c = '^' := by simpa using hrun.all c hc
    decide
  | opening => simp
  | closing => simp
  | repetition hrun _ =>
    refine List.forall_mem_cons.2 ⟨by decide, fun c hc => ⟨?_, ?_⟩⟩ <;> rintro rfl
    · exact absurd (hrun.all _ hc) (by decide)
    · exact absurd (hrun.all _ hc) (by decide)
  | node _ _ _ => exact absurd rfl hkind

/-- A node may begin behind an operator and behind an opening bracket. -/
theorem beginsAfter_piece {kind : TokenKind} {value rest : Text} (h : Piece kind value rest)
    (hkind : kind = .operator ∨ kind = .opening) : beginsAfter begins value = true := by
  cases h with
  | operator hc => rcases hc with rfl | rfl <;> rfl
  | @climb more rest hrun =>
    have hmore : ∀ more : Text, (∀ c ∈ more, c = '^') → beginsAfter true more = true := by
      intro more
      induction more with
      | nil => exact fun _ => rfl
      | cons c more ih =>
        intro hall
        obtain ⟨rfl, hmore⟩ := List.forall_mem_cons.1 hall
        exact ih hmore
    exact hmore more fun c hc => by simpa using hrun.all c hc
  | opening => rfl
  | closing => simp at hkind
  | repetition _ _ => simp at hkind
  | node _ _ _ => simp at hkind

/-- Where the tokens of a text that is `whole` long stand: a node may begin before a node, and
a bare lorem node is not everything. -/
structure Placed (whole : Nat) (begins : Bool) (tokens : List Token) : Prop where
  cut : Cut (textOf tokens) tokens
  follow : ItemsFollow tokens
  begins : ∀ token ∈ tokens.head?, token.kind = .node → begins = true
  length : (textOf tokens).length ≤ whole
  part : (textOf tokens).length = whole → ∀ name modifiers repetition, ¬ Bare tokens name modifiers repetition []

theorem Placed.tail {token : Token} {rest : List Token} (h : Placed whole begins (token :: rest)) :
    Placed whole (beginsAfter begins token.value) rest := by
  obtain ⟨-, hpiece, hcut⟩ := cut_cons h.cut
  have hpos := List.length_pos_iff.2 hpiece.value_ne_nil
  have hlength := h.length
  rw [textOf_cons, List.length_append] at hlength
  refine ⟨hcut, h.follow.tail, fun next hnext hkind => ?_, by omega, fun heq => by omega⟩
  cases rest with
  | nil => cases hnext
  | cons next' rest =>
    obtain rfl : next' = next := by simpa using hnext
    exact beginsAfter_piece hpiece ((List.isChain_cons_cons.1 h.follow).1 (.inl hkind))

theorem Placed.right {before rest : List Token} (h : Placed whole begins (before ++ rest)) :
    Placed whole (beginsAfter begins (textOf before)) rest := by
  induction before generalizing begins with
  | nil => exact h
  | cons token before ih =>
    rw [textOf_cons, beginsAfter_append]
    exact ih h.tail

/-- Two beginnings of a text are equal when none of them goes on with `>`, and both are
followed by `>` in another text. -/
theorem eq_of_child {p q a b x y : Text} (h : p ++ a = q ++ b) (h' : p ++ '>' :: x = q ++ '>' :: y)
    (ha : a.head? ≠ some '>') (hb : b.head? ≠ some '>') : p = q := by
  rcases List.append_eq_append_iff.1 h with ⟨more, rfl, rfl⟩ | ⟨more, rfl, rfl⟩
  · cases more with
    | nil => simp
    | cons c more =>
      rw [List.append_assoc, List.append_cancel_left_eq, List.cons_append, List.cons.injEq] at h'
      obtain ⟨rfl, -⟩ := h'
      exact absurd rfl ha
  · cases more with
    | nil => simp
    | cons c more =>
      rw [List.append_assoc, List.append_cancel_left_eq, List.cons_append, List.cons.injEq] at h'
      obtain ⟨rfl, -⟩ := h'
      exact absurd rfl hb

/-! ## The text that is written -/

section

variable {tokens rest : List Token} {name modifiers : Text} {repetition : Option Text} {m : Match}

theorem Legible.of_bare (h : Legible tokens) (hbare : Bare tokens name modifiers repetition rest) :
    Legible rest ∧ ∃ m, Begins m (textOf tokens) ∧ m.text = bareText name modifiers repetition := by
  cases h with
  | nil => cases hbare.split
  | bare hbare' hm htext hrest =>
    obtain ⟨hsame, rfl⟩ := hbare.unique hbare'
    exact ⟨hrest, _, hm, htext.trans hsame.symm⟩
  | other hnot _ _ => exact absurd hbare (hnot _ _ _ _)

theorem Legible.of_other {token : Token} (h : Legible (token :: rest))
    (hnot : ∀ name modifiers repetition left, ¬ Bare (token :: rest) name modifiers repetition left) :
    Legible rest ∧ (token.kind = .node → Unmatched true token.value (textOf rest)) := by
  cases h with
  | bare hbare _ _ _ => exact absurd hbare (hnot _ _ _ _)
  | other _ hunmatched hrest => exact ⟨hrest, hunmatched⟩

theorem Bare.name_eq (h : Bare tokens name modifiers repetition rest) (hm : Begins m (textOf tokens)) :
    m.name = name := by
  rw [h.textOf_eq, bareText, List.append_assoc] at hm
  refine hm.name_eq h.isName ?_
  obtain ⟨c, more, heq, hc⟩ := h.modifiers_head
  rw [heq]
  exact stopsName_cons hc

/-- Behind a bare lorem node with its repetition there is no `>`. -/
theorem Bare.no_child (h : Bare tokens name modifiers repetition rest) (hcut : Cut (textOf rest) rest) :
    (textOf rest).head? ≠ some '>' := by
  cases rest with
  | nil => simp [textOf]
  | cons token rest =>
    obtain ⟨kind, value⟩ := token
    intro hhead
    have hends := (h.ends _ rfl).2
    obtain ⟨-, hpiece, -⟩ := cut_cons hcut
    rw [textOf_cons] at hhead
    cases hpiece with
    | operator hc =>
      rcases hc with rfl | rfl
      · exact hends rfl
      · cases hhead
    | climb _ => cases hhead
    | opening => cases hhead
    | closing => cases hhead
    | repetition _ _ => cases hhead
    | node hne hparts _ =>
      obtain ⟨c, more, heq, hmark⟩ := flatten_head hne hparts
      simp only at hhead
      rw [heq] at hhead
      cases hhead
      cases hmark

/-- A match that is written as an element around the name has taken the node and its
repetition. -/
theorem Bare.text_eq {x y : Text} (h : Bare tokens name modifiers repetition rest)
    (hcut : Cut (textOf rest) rest) (hm : Begins m (textOf tokens))
    (heq : (m.modifiers ++ m.repetition) ++ '>' :: x =
      (modifiers ++ textOf (repetitionTokens repetition)) ++ '>' :: y) :
    m.text = bareText name modifiers repetition := by
  have hname := h.name_eq hm
  obtain ⟨left, htokens, hends⟩ := hm.ends
  have hleft : left.head? ≠ some '>' := by
    intro hhead
    have := (closes_of_endsNode hends).1 '>' hhead
    simp at this
  rw [h.textOf_eq, bareText, Match.text, hname, List.append_assoc name, List.append_assoc name,
    List.append_cancel_left_eq] at htokens
  rw [Match.text, bareText, hname, eq_of_child htokens.symm heq hleft (h.no_child hcut)]

theorem Bare.modifiers_eq (h : Bare tokens name modifiers repetition rest) (hm : Begins m (textOf tokens))
    (htext : m.text = bareText name modifiers repetition) :
    m.modifiers ++ m.repetition = modifiers ++ textOf (repetitionTokens repetition) := by
  rwa [Match.text, bareText, h.name_eq hm, List.append_cancel_left_eq] at htext

/-- What is written for a bare lorem node that is not everything. -/
theorem wrapFrom_bare_iff {rest' : List Token}
    (hbare : Bare tokens name modifiers repetition rest) (hp : Placed whole true tokens) :
    wrapFrom whole true 0 (textOf tokens) =
        textOf (⟨.opening, ['(']⟩ :: (element name modifiers repetition ++ ⟨.closing, [')']⟩ :: rest')) ↔
      (∃ m, Begins m (textOf tokens) ∧ m.text = bareText name modifiers repetition) ∧
      wrapFrom whole (beginsAfter true (bareText name modifiers repetition)) 0 (textOf rest) = textOf rest' := by
  have hcut : Cut (textOf rest) rest := by
    have := hp.cut
    rw [hbare.split] at this
    exact cut_right (cut_cons this).2.2
  have hafter : textOf (⟨.opening, ['(']⟩ :: (element name modifiers repetition ++ ⟨.closing, [')']⟩ :: rest')) =
      '(' :: ((modifiers ++ textOf (repetitionTokens repetition)) ++ '>' :: (name ++ ')' :: textOf rest')) := by
    simp [textOf, element]
  rw [hafter]
  have hwritten (m : Match) (hlength : m.length ≠ whole) (x : Text) :
      written whole m ++ x = '(' :: ((m.modifiers ++ m.repetition) ++ '>' :: (m.name ++ ')' :: x)) := by
    rw [written, if_neg hlength]
    simp [Match.element]
  constructor
  · intro heq
    by_cases hmatch : ∃ m, Begins m (textOf tokens)
    · obtain ⟨m, hm⟩ := hmatch
      have htokens := hm
      obtain ⟨left, hleft, -⟩ := hm.ends
      rw [hleft] at heq htokens
      rw [wrapFrom_match htokens] at heq
      have hlength : m.length ≠ whole := by
        intro hlength
        obtain ⟨c, more, hmodifiers, hc⟩ := hm.modifiers_head
        rw [written, if_pos hlength, Match.element, hmodifiers] at heq
        obtain ⟨rfl, -⟩ := List.cons.inj heq
        exact absurd hc (by decide)
      rw [hwritten m hlength, List.cons.injEq] at heq
      have htext := hbare.text_eq hcut hm heq.2
      refine ⟨⟨m, hm, htext⟩, ?_⟩
      rw [htext, hbare.textOf_eq, List.append_cancel_left_eq] at hleft
      rw [hbare.modifiers_eq hm htext, hbare.name_eq hm, htext, ← hleft] at heq
      simpa using heq.2
    · obtain ⟨c, more, hhead, hc⟩ := hbare.head
      rw [hhead, wrapFrom_cons fun _ m hm => hmatch ⟨m, by rwa [hhead]⟩] at heq
      obtain ⟨rfl, -⟩ := List.cons.inj heq
      exact absurd hc (by decide)
  · rintro ⟨⟨m, hm, htext⟩, hrest⟩
    have htokens : textOf tokens = m.text ++ textOf rest := by rw [htext, hbare.textOf_eq]
    have hlength : m.length ≠ whole := by
      intro hlength
      have hle := hp.length
      have hpart := hp.part
      rw [htokens, List.length_append, m.length_text, hlength] at hle hpart
      have hnil : textOf rest = [] := List.length_eq_zero_iff.1 (by omega)
      cases rest with
      | nil => exact hpart rfl _ _ _ hbare
      | cons token rest =>
        rw [textOf_cons] at hnil
        exact hcut.value_ne_nil token List.mem_cons_self (List.append_eq_nil_iff.1 hnil).1
    rw [htokens, wrapFrom_match (htokens ▸ hm), hwritten m hlength, hbare.modifiers_eq hm htext,
      hbare.name_eq hm, htext, hrest]

end

/-- The wrapping writes what is rewritten just when the tokens are legible. -/
theorem wrapFrom_eq_iff {tokens tokens' : List Token} (h : Wrapped tokens tokens')
    (hp : Placed whole begins tokens) :
    wrapFrom whole begins 0 (textOf tokens) = textOf tokens' ↔ Legible tokens := by
  induction h generalizing begins with
  | nil => exact ⟨fun _ => .nil, fun _ => rfl⟩
  | @wrap tokens rest rest' name modifiers repetition hbare _ ih =>
    have hsplit := hbare.split
    have hbegins : begins = true := hp.begins ⟨.node, name ++ modifiers⟩ (by rw [hsplit]; rfl) rfl
    subst hbegins
    rw [wrapFrom_bare_iff hbare hp]
    have hrest : Placed whole (beginsAfter true (bareText name modifiers repetition)) rest := by
      rw [hsplit] at hp
      have := hp.tail.right
      rwa [← beginsAfter_append, List.append_assoc] at this
    rw [ih hrest]
    constructor
    · rintro ⟨⟨m, hm, htext⟩, hlegible⟩
      exact .bare hbare hm htext hlegible
    · intro hlegible
      exact (hlegible.of_bare hbare).symm
  | @keep token rest rest' hnot _ ih =>
    obtain ⟨-, hpiece, -⟩ := cut_cons hp.cut
    rw [textOf_cons, textOf_cons]
    by_cases hkind : token.kind = .node
    · have hbegins : begins = true := hp.begins token rfl hkind
      subst hbegins
      constructor
      · intro heq
        have hunmatched := unmatched_of_wrapFrom heq
        rw [wrapFrom_unmatched hunmatched, List.append_cancel_left_eq] at heq
        exact .other hnot (fun _ => hunmatched) ((ih hp.tail).1 heq)
      · intro hlegible
        obtain ⟨hrest, hunmatched⟩ := hlegible.of_other hnot
        rw [wrapFrom_unmatched (hunmatched hkind), (ih hp.tail).2 hrest]
    · have hunmatched : Unmatched begins token.value (textOf rest) :=
        unmatched_of_forall (piece_chars hpiece hkind)
      rw [wrapFrom_unmatched hunmatched, List.append_cancel_left_eq, ih hp.tail]
      constructor
      · exact fun hrest => .other hnot (fun hnode => absurd hnode hkind) hrest
      · exact fun hlegible => (hlegible.of_other hnot).1

/-! ## Whole abbreviations -/

/-- What is written for a bare lorem node that is everything. -/
theorem wrapFrom_whole_iff {tokens : List Token} {name modifiers : Text} {repetition : Option Text}
    (hbare : Bare tokens name modifiers repetition []) :
    wrap (textOf tokens) = textOf (element name modifiers repetition) ↔
      ∃ m, Begins m (textOf tokens) ∧ m.text = bareText name modifiers repetition := by
  have htokens : textOf tokens = bareText name modifiers repetition := by
    rw [hbare.textOf_eq]
    exact List.append_nil _
  have hafter : textOf (element name modifiers repetition) =
      (modifiers ++ textOf (repetitionTokens repetition)) ++ '>' :: name := by
    simp [textOf, element]
  obtain ⟨c, more, hmodifiers, hc⟩ := hbare.modifiers_head
  rw [hafter, wrap]
  constructor
  · intro heq
    rw [hmodifiers] at heq
    by_cases hmatch : ∃ m, Begins m (textOf tokens)
    · obtain ⟨m, hm⟩ := hmatch
      refine ⟨m, hm, ?_⟩
      obtain ⟨left, hleft, -⟩ := id hm.ends
      rw [hleft] at hm heq
      rw [wrapFrom_match hm, written] at heq
      split at heq
      next hlength =>
        rw [List.length_append, m.length_text] at hlength
        have hnil : left = [] := List.length_eq_zero_iff.1 (by omega)
        rw [← htokens, hleft, hnil, List.append_nil]
      next =>
        obtain ⟨rfl, -⟩ := List.cons.inj heq
        exact absurd hc (by decide)
    · obtain ⟨d, more', hhead, hd⟩ := hbare.head
      rw [hhead, wrapFrom_cons fun _ m hm => hmatch ⟨m, by rwa [hhead]⟩] at heq
      obtain ⟨rfl, -⟩ := List.cons.inj heq
      rcases hd with rfl | rfl <;> exact absurd hc (by decide)
  · rintro ⟨m, hm, htext⟩
    have hall : textOf tokens = m.text ++ [] := by rw [htokens, htext, List.append_nil]
    have hlength : m.length = (m.text ++ []).length := by rw [List.append_nil, m.length_text]
    rw [hall, wrapFrom_match (hall ▸ hm), written, if_pos hlength, Match.element,
      hbare.modifiers_eq hm htext, hbare.name_eq hm]
    exact List.append_nil _

/-- The tokens of a rewritten abbreviation are cut from its text. -/
theorem cut_rewritten {tokens tokens' : List Token} (h : Rewritten tokens tokens') {t : Text}
    (hcut : Cut t tokens) : Cut (textOf tokens') tokens' := by
  cases h with
  | whole hbare => simpa using cut_element hbare hcut (by simp) .nil
  | parts _ hwrapped => exact cut_wrapped hwrapped hcut

theorem wrap_eq_iff {tokens tokens' : List Token} (h : Rewritten tokens tokens')
    (hcut : Cut (textOf tokens) tokens) (hfollow : ItemsFollow tokens) :
    wrap (textOf tokens) = textOf tokens' ↔ Legible tokens := by
  cases h with
  | whole hbare =>
    rw [wrapFrom_whole_iff hbare]
    constructor
    · rintro ⟨m, hm, htext⟩
      exact .bare hbare hm htext .nil
    · exact fun hlegible => (hlegible.of_bare hbare).2
  | parts hnot hwrapped =>
    exact wrapFrom_eq_iff hwrapped ⟨hcut, hfollow, fun _ _ _ => rfl, Nat.le_refl _, fun _ => hnot⟩

/-- A doctype is not changed. -/
theorem wrap_doctype {t : Text} (h : IsDoctype t) : wrap t = t := by
  obtain ⟨rest, rfl, hall⟩ := h
  have hunmatched : Unmatched true ('!' :: rest) [] := by
    refine unmatched_of_forall (List.forall_mem_cons.2 ⟨by decide, fun c hc => ?_⟩)
    rw [hall c hc]
    decide
  have hsame := wrapFrom_unmatched hunmatched ('!' :: rest).length
  rw [List.append_nil] at hsame
  rw [wrap, hsame]
  exact List.append_nil _

/-- **Which lorem nodes are rewritten, and what else is.** An abbreviation that is not cut
into tokens is a doctype, and is not changed. For any other one, what is written is cut
into the tokens in which the bare lorem nodes are rewritten, and every other token is as
it was, just when the abbreviation is legible. -/
theorem wrap_tokens_iff {t : Text} (h : isMarkup t = .ok true) :
    (∀ fault, tokenize t = .error fault → wrap t = t) ∧
    ∀ tokens, tokenize t = .ok tokens →
      (∃ tokens', Rewritten tokens tokens') ∧
      ∀ tokens', Rewritten tokens tokens' → (tokenize (wrap t) = .ok tokens' ↔ Legible tokens) := by
  constructor
  · intro fault hfault
    obtain ⟨-, hdoctype | ⟨c, rest, tokens, rfl, -, -, hcut, -⟩⟩ := isMarkup_eq_true_iff.1 h
    · exact wrap_doctype hdoctype
    · rw [tokenize_eq_ok_iff.2 hcut] at hfault
      cases hfault
  · intro tokens htokens
    have hcut := tokenize_eq_ok_iff.1 htokens
    obtain rfl : textOf tokens = t := hcut.flatMap_value
    refine ⟨exists_rewritten tokens, fun tokens' hrewritten => ?_⟩
    have hcut' := cut_rewritten hrewritten hcut
    rw [← wrap_eq_iff hrewritten hcut (itemsFollow_of_parse (parse_of_markup h hcut)), tokenize_eq_ok_iff]
    constructor
    · exact fun hwrap => hwrap.flatMap_value.symm
    · intro heq
      rwa [heq]

/-- A lorem node with a class, and a node behind it. -/
theorem wrap_tokens_iff_sibling :
    let t := "lorem.a+p".toList
    let tokens : List Token := [⟨.node, "lorem.a".toList⟩, ⟨.operator, ['+']⟩, ⟨.node, ['p']⟩]
    let tokens' : List Token :=
      [⟨.opening, ['(']⟩, ⟨.node, ".a".toList⟩, ⟨.operator, ['>']⟩, ⟨.node, "lorem".toList⟩,
       ⟨.closing, [')']⟩, ⟨.operator, ['+']⟩, ⟨.node, ['p']⟩]
    isMarkup t = .ok true ∧ tokenize t = .ok tokens ∧ Rewritten tokens tokens' ∧ Legible tokens ∧
      tokenize (wrap t) = .ok tokens' := by
  intro t tokens tokens'
  have htokens : tokenize t = .ok tokens := by decide +kernel
  have hparse : parse tokens = .ok () := by
    simp [tokens, parse, expression, item, operands, skipRepetition, endsHere]
  have hmarkup : isMarkup t = .ok true :=
    isMarkup_eq_true_iff.2 ⟨by decide, .inr ⟨'l', _, _, rfl, by decide, by decide,
      tokenize_eq_ok_iff.1 htokens, hparse⟩⟩
  have hclass : Modifier ".a".toList :=
    .name (.inl rfl) (by simp) (List.forall_mem_singleton.2 (by decide))
  have hbare : Bare tokens "lorem".toList ".a".toList none [⟨.operator, ['+']⟩, ⟨.node, ['p']⟩] :=
    { isName := ⟨"lorem".toList, [], [], [], rfl, by decide, by simp, by simp, .inl rfl⟩
      parts := ⟨[".a".toList], by simp, by simpa using hclass, rfl⟩
      split := rfl
      ends := by simp }
  have hplus := @not_bare_of_head [⟨.operator, ['+']⟩, ⟨.node, ['p']⟩] '+' ['p'] rfl (by decide)
  have hp := @not_bare_of_head [⟨.node, ['p']⟩] 'p' [] rfl (by decide)
  have hrewritten : Rewritten tokens tokens' := by
    refine .parts (fun name modifiers repetition hall => ?_) (.wrap hbare (.keep hplus (.keep hp .nil)))
    cases (hbare.unique hall).2
  have hmatch : Begins ⟨"lorem".toList, ".a".toList, []⟩ (textOf tokens) :=
    match?_eq_some_iff.1 (by decide +kernel)
  have hlegible : Legible tokens :=
    .bare hbare hmatch rfl (.other hplus (by simp) (.other hp (fun _ => unmatched_of_forall (by simp)) .nil))
  exact ⟨hmarkup, htokens, hrewritten, hlegible,
    (((wrap_tokens_iff hmarkup).2 tokens htokens).2 tokens' hrewritten).2 hlegible⟩

/-- **The content of a text block is altered.** In `p{(lorem.a)}` there is no lorem node, and
yet what the braces hold is rewritten. -/
theorem wrap_alters_text :
    ¬ ∀ t tokens tokens', isMarkup t = .ok true → tokenize t = .ok tokens → Rewritten tokens tokens' →
      tokenize (wrap t) = .ok tokens' := by
  intro claim
  let t := "p\x7b(lorem.a)\x7d".toList
  have htokens : tokenize t = .ok [⟨.node, t⟩] := by decide +kernel
  have hmarkup : isMarkup t = .ok true :=
    isMarkup_eq_true_iff.2 ⟨by decide, .inr ⟨'p', _, _, rfl, by decide, by decide,
      tokenize_eq_ok_iff.1 htokens, parse_node _ none⟩⟩
  have hnot := @not_bare_of_head [⟨.node, t⟩] 'p' _ rfl (by decide)
  have hrewritten : Rewritten [⟨.node, t⟩] [⟨.node, t⟩] :=
    .parts (fun n m r => hnot n m r []) (.keep hnot .nil)
  have hsame := claim t _ _ hmarkup htokens hrewritten
  exact absurd hsame (by decide +kernel)

end Shorthand.Expansion.Lorem
