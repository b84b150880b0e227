/-
Plain abbreviations: names, classes, ids, groups and operators, with no blocks and no
escaped characters. `legible_of_plain` says that in these the bare lorem nodes are matched
and nothing else is, so that they are rewritten as they should be (`tokenize_wrap_plain`).
-/
import Shorthand.Proofs.Expansion.LoremWrap

namespace Shorthand.Expansion.Lorem

open Abbreviation
open Text (isDecimal isDigit Run Stops)

/-- There are no blocks and no escaped characters in a text, and no `:` and `%`, which
stand in names but not in a class or an id as it is matched. -/
def Plain (t : Text) : Prop := ∀ c ∈ t, c ∉ ['[', '{', '\\', ':', '%']

/-- The characters of plain nodes. -/
def isPlainChar (c : Char) : Bool := isModifierChar c || c == '.' || c == '#'

theorem plain_append {t t' : Text} : Plain (t ++ t') ↔ Plain t ∧ Plain t' := List.forall_mem_append

theorem Plain.of_mem_flatten {parts : List Text} {part : Text} (h : Plain parts.flatten) (hpart : part ∈ parts) :
    Plain part :=
  fun c hc => h c (List.mem_flatten_of_mem hpart hc)

/-! ## Characters -/

theorem isNameChar_of_modifierChar {c : Char} (h : isModifierChar c = true) : isNameChar c = true := by
  simp only [isModifierChar, Text.isWordChar, Bool.or_eq_true, beq_iff_eq] at h
  rcases h with (((h | rfl) | rfl) | rfl) | rfl
  · rw [isNameChar, h, Bool.true_or]
  all_goals decide

theorem isModifierChar_of_nameChar {c : Char} (h : isNameChar c = true) (hplain : c ∉ ['[', '{', '\\', ':', '%']) :
    isModifierChar c = true := by
  simp only [List.mem_cons, List.not_mem_nil, or_false, not_or] at hplain
  obtain ⟨-, -, -, hcolon, hpercent⟩ := hplain
  simp only [isNameChar, Bool.or_eq_true, List.contains_iff_mem, List.mem_cons, List.not_mem_nil,
    or_false] at h
  rcases h with h | rfl | rfl | rfl | rfl | rfl | rfl
  · simp [isModifierChar, Text.isWordChar, h]
  · decide
  · decide
  · exact absurd rfl hcolon
  · decide
  · decide
  · exact absurd rfl hpercent

theorem isPlainChar_of_mark {c : Char} (h : isMark c = true) : isPlainChar c = false := by
  simp only [isMark, List.contains_iff_mem, List.mem_cons, List.not_mem_nil, or_false] at h
  rcases h with rfl | rfl | rfl | rfl | rfl | rfl <;> decide

theorem isPlainChar_of_part {part : Text} (h : NodePart part) (hplain : Plain part) :
    ∀ c ∈ part, isPlainChar c = true := by
  cases h with
  | name hc =>
    have hmodifier := isModifierChar_of_nameChar hc (hplain _ List.mem_cons_self)
    simp [isPlainChar, hmodifier]
  | sign hc => rcases hc with rfl | rfl <;> simp [isPlainChar]
  | escaped c => exact absurd (by simp) (hplain _ List.mem_cons_self)
  | attributes _ _ => exact absurd (by simp) (hplain _ List.mem_cons_self)
  | text _ => exact absurd (by simp) (hplain _ List.mem_cons_self)

theorem isPlainChar_of_seen {part : Text} (h : Seen part) (hplain : Plain part) :
    ∀ c ∈ part, isPlainChar c = true := by
  cases h with
  | name hc _ hall =>
    refine List.forall_mem_cons.2 ⟨?_, fun x hx => by simp [isPlainChar, hall x hx]⟩
    rcases hc with rfl | rfl <;> decide
  | block _ => exact absurd (by simp) (hplain _ List.mem_cons_self)

/-- No node begins behind a character of a plain node. -/
theorem beginsAfter_plain {begins : Bool} {t : Text} (hne : t ≠ []) (h : ∀ c ∈ t, isPlainChar c = true) :
    beginsAfter begins t = false := by
  obtain ⟨c, t, rfl⟩ := List.exists_cons_of_ne_nil hne
  induction t generalizing begins c with
  | nil =>
    refine Bool.eq_false_iff.2 fun hbegins => ?_
    simp only [beginsAfter, beginsNode, Bool.or_eq_true, beq_iff_eq] at hbegins
    have hc := h c List.mem_cons_self
    rcases hbegins with ((rfl | rfl) | rfl) | rfl <;> revert hc <;> decide
  | cons d t ih =>
    exact @ih (beginsNode c) d (List.cons_ne_nil _ _) fun x hx => h x (List.mem_cons_of_mem _ hx)

/-- A plain node is a longest run. -/
theorem run_node {value rest : Text} {tokens : List Token} (h : Piece .node value rest) (hcut : Cut rest tokens)
    (hplain : Plain value) : Run isPlainChar value rest := by
  cases h with
  | node hne hparts hnone =>
    refine ⟨fun c hc => ?_, fun c hc => isPlainChar_of_mark (hcut.mark_of_noPart hnone c hc)⟩
    obtain ⟨part, hpart, hc⟩ := List.mem_flatten.1 hc
    exact isPlainChar_of_part (hparts part hpart) (hplain.of_mem_flatten hpart) c hc

/-! ## What is matched is bare -/

theorem modifier_iff_seen {part : Text} (hplain : Plain part) : Modifier part ↔ Seen part := by
  constructor
  · intro h
    cases h with
    | name hc hne hall =>
      exact .name hc hne fun x hx =>
        isModifierChar_of_nameChar (hall x hx) (hplain x (List.mem_cons_of_mem _ hx))
    | block _ _ => exact absurd (by simp) (hplain _ List.mem_cons_self)
  · intro h
    cases h with
    | name hc hne hall => exact .name hc hne fun x hx => isNameChar_of_modifierChar (hall x hx)
    | block _ => exact absurd (by simp) (hplain _ List.mem_cons_self)

/-- The name and the modifiers of a match are a longest run. -/
theorem Begins.run {m : Match} {t left : Text} (h : Begins m t) (hplain : Plain (m.name ++ m.modifiers))
    (hends : endsNode left = true) : Run isPlainChar (m.name ++ m.modifiers) (m.repetition ++ left) := by
  obtain ⟨hname, hmodifiers⟩ := plain_append.1 hplain
  refine ⟨List.forall_mem_append.2 ⟨fun c hc => ?_, fun c hc => ?_⟩, fun c hc => ?_⟩
  · have hmodifier := isModifierChar_of_nameChar (h.name.all c hc) (hname c hc)
    simp [isPlainChar, hmodifier]
  · obtain ⟨parts, -, hparts, heq⟩ := h.modifiers
    rw [heq] at hc hmodifiers
    obtain ⟨part, hpart, hc⟩ := List.mem_flatten.1 hc
    exact isPlainChar_of_seen (hparts part hpart) (hmodifiers.of_mem_flatten hpart) c hc
  · have hcloses := closes_repetition h.repetition (closes_of_endsNode hends).1
    obtain ⟨hmodifier, hdot, hhash, -⟩ := hcloses.stopsModifiers c hc
    simp [isPlainChar, hmodifier, hdot, hhash]

theorem isDecimal_of_count {digits : Text} (h : digits = [] ∨ ∃ n ≤ maxRepeat, Text.number? digits = some n) :
    ∀ c ∈ digits, isDecimal c = true := by
  have hread : ∀ (t : Text) (n m : Nat),
      t.foldlM (fun n c => (Text.digitValue? c).map (n * 10 + ·)) n = some m → ∀ c ∈ t, isDecimal c = true := by
    intro t
    induction t with
    | nil => simp
    | cons c t ih =>
      intro n m hm
      rw [List.foldlM_cons] at hm
      obtain ⟨n', hn', hm⟩ := Option.bind_eq_some_iff.1 hm
      refine List.forall_mem_cons.2 ⟨?_, ih n' m hm⟩
      obtain ⟨value, hvalue, -⟩ := Option.map_eq_some_iff.1 hn'
      rw [isDecimal, ← isSome_offset?, ← Option.isSome_map (f := (· % 10))]
      exact Option.isSome_iff_exists.2 ⟨value, hvalue⟩
  rcases h with rfl | ⟨n, -, hn⟩
  · simp
  · rw [Text.number?] at hn
    split at hn
    next => cases hn
    next => exact hread digits 0 n hn

/-- A repetition as it is matched is that of the tokens. -/
theorem exists_repetition {rest : List Token} {repetition left : Text} (hcut : Cut (textOf rest) rest)
    (h : IsRepetition repetition) (hends : endsNode left = true) (heq : textOf rest = repetition ++ left) :
    ∃ (given : Option Text) (rest' : List Token), rest = repetitionTokens given ++ rest' ∧ textOf rest' = left := by
  rcases h with rfl | ⟨digits, rfl, hdigits⟩
  · exact ⟨none, rest, rfl, heq⟩
  cases rest with
  | nil => cases heq
  | cons token rest =>
    obtain ⟨kind, value⟩ := token
    obtain ⟨-, hpiece, -⟩ := cut_cons hcut
    rw [textOf_cons] at heq
    cases hpiece with
    | operator hc => rcases hc with rfl | rfl <;> cases heq
    | climb _ => cases heq
    | opening => cases heq
    | closing => cases heq
    | repetition hrun hcount =>
      refine ⟨some _, rest, rfl, ?_⟩
      have hgiven : Run isDecimal _ (textOf rest) :=
        ⟨isDecimal_of_count hcount, fun c hc => (Bool.or_eq_false_iff.1 (hrun.stops c hc)).1⟩
      have hmatched : Run isDecimal digits left := ⟨hdigits, (closes_of_endsNode hends).2⟩
      exact (hgiven.inj hmatched (List.cons.inj heq).2).2
    | node hne hparts _ =>
      obtain ⟨c, more, hvalue, hmark⟩ := flatten_head hne hparts
      simp only [hvalue] at heq
      obtain ⟨rfl, -⟩ := List.cons.inj heq
      cases hmark

theorem endsNode_cons {c : Char} {more : Text} (h : c ∉ ['\n', '+', '^', ')']) : endsNode (c :: more) = false := by
  simp only [List.mem_cons, List.not_mem_nil, or_false, not_or] at h
  obtain ⟨hfeed, hplus, hclimb, hclosing⟩ := h
  simp [endsNode, hfeed, hplus, hclimb, hclosing]

theorem ends_of_endsNode {rest : List Token} (hcut : Cut (textOf rest) rest) (h : endsNode (textOf rest) = true) :
    ∀ token ∈ rest.head?, token.kind ≠ .repetition ∧ token ≠ ⟨.operator, ['>']⟩ := by
  cases rest with
  | nil => simp
  | cons token rest =>
    obtain ⟨kind, value⟩ := token
    obtain ⟨-, hpiece, -⟩ := cut_cons hcut
    simp only [List.head?_cons, Option.mem_some_iff, forall_eq', ne_eq, Token.mk.injEq, not_and]
    rw [textOf_cons] at h
    refine ⟨?_, ?_⟩
    · rintro rfl
      cases hpiece with
      | repetition _ _ => rw [List.cons_append, endsNode_cons (by decide)] at h; cases h
    · rintro rfl rfl
      rw [List.cons_append, endsNode_cons (by decide)] at h
      cases h

/-- A node that is matched is a bare lorem node. -/
theorem exists_bare {value : Text} {rest : List Token} {m : Match}
    (hcut : Cut (textOf (⟨.node, value⟩ :: rest)) (⟨.node, value⟩ :: rest))
    (hplain : Plain (textOf (⟨.node, value⟩ :: rest))) (hm : Begins m (textOf (⟨.node, value⟩ :: rest))) :
    ∃ repetition left, Bare (⟨.node, value⟩ :: rest) m.name m.modifiers repetition left := by
  obtain ⟨-, hpiece, hbehind⟩ := cut_cons hcut
  obtain ⟨left, heq, hends⟩ := hm.ends
  have hsplit : value ++ textOf rest = (m.name ++ m.modifiers) ++ (m.repetition ++ left) := by
    simpa [textOf_cons, Match.text] using heq
  have hmatched : Plain (m.name ++ m.modifiers) := by
    rw [textOf_cons, hsplit] at hplain
    exact (plain_append.1 hplain).1
  have hvalue : Plain value := (plain_append.1 hplain).1
  obtain ⟨rfl, hrest⟩ := (run_node hpiece hbehind hvalue).inj (hm.run hmatched hends) hsplit
  obtain ⟨repetition, rest', rfl, rfl⟩ := exists_repetition hbehind hm.repetition hends hrest
  obtain ⟨parts, hne, hparts, hmodifiers⟩ := hm.modifiers
  have hplainParts : Plain parts.flatten := hmodifiers ▸ (plain_append.1 hmatched).2
  refine ⟨repetition, rest', ⟨hm.name, ⟨parts, hne, fun part hpart => ?_, hmodifiers⟩, rfl, ?_⟩⟩
  · exact (modifier_iff_seen (hplainParts.of_mem_flatten hpart)).2 (hparts part hpart)
  · exact ends_of_endsNode (cut_right hbehind) hends

/-- Nothing is matched in a plain node that is not bare. -/
theorem unmatched_node {value : Text} {rest : List Token}
    (hcut : Cut (textOf (⟨.node, value⟩ :: rest)) (⟨.node, value⟩ :: rest))
    (hplain : Plain (textOf (⟨.node, value⟩ :: rest)))
    (hnot : ∀ name modifiers repetition left, ¬ Bare (⟨.node, value⟩ :: rest) name modifiers repetition left) :
    Unmatched true value (textOf rest) := by
  obtain ⟨-, hpiece, hbehind⟩ := cut_cons hcut
  have hrun := run_node hpiece hbehind (plain_append.1 hplain).1
  rintro before after rfl - hbegins m hm
  cases before with
  | nil =>
    obtain ⟨repetition, left, hbare⟩ := exists_bare hcut hplain hm
    exact hnot _ _ _ _ hbare
  | cons c before =>
    rw [beginsAfter_plain (List.cons_ne_nil _ _) fun d hd => hrun.all d (List.mem_append_left _ hd)] at hbegins
    cases hbegins

/-! ## What is bare is matched -/

/-- No item stands behind a bare lorem node with its repetition. -/
theorem Bare.follow {tokens rest : List Token} {name modifiers : Text} {repetition : Option Text}
    (h : Bare tokens name modifiers repetition rest) (hfollow : ItemsFollow tokens) :
    NoItemFirst rest ∧ ItemsFollow rest := by
  rw [h.split] at hfollow
  have hbehind {token : Token} {rest : List Token} (hfollow : ItemsFollow (token :: rest))
      (hkind : token.kind = .node ∨ token.kind = .repetition) : NoItemFirst rest ∧ ItemsFollow rest := by
    refine ⟨fun next hnext hitem => ?_, hfollow.tail⟩
    obtain ⟨rest, rfl⟩ : ∃ more, rest = next :: more := List.head?_eq_some_iff.1 hnext
    have hbefore := (List.isChain_cons_cons.1 hfollow).1 hitem
    rcases hkind with hkind | hkind <;> simp [hkind] at hbefore
  cases repetition with
  | none => exact hbehind hfollow (.inl rfl)
  | some value => exact hbehind hfollow.tail (.inr rfl)

theorem endsNode_of_cut {rest : List Token} (hcut : Cut (textOf rest) rest) (hfirst : NoItemFirst rest)
    (hends : ∀ token ∈ rest.head?, token.kind ≠ .repetition ∧ token ≠ ⟨.operator, ['>']⟩) :
    endsNode (textOf rest) = true := by
  have hcons {c : Char} (more : Text) (hc : c = '+' ∨ c = '^' ∨ c = ')') : endsNode (c :: more) = true := by
    rcases hc with rfl | rfl | rfl <;> cases more <;> rfl
  cases rest with
  | nil => rfl
  | cons token rest =>
    obtain ⟨kind, value⟩ := token
    obtain ⟨hkind, hchild⟩ := hends _ rfl
    have hitem := hfirst _ rfl
    obtain ⟨-, hpiece, -⟩ := cut_cons hcut
    rw [textOf_cons]
    cases hpiece with
    | operator hc =>
      rcases hc with rfl | rfl
      · exact absurd rfl hchild
      · exact hcons _ (.inl rfl)
    | climb _ => exact hcons _ (.inr (.inl rfl))
    | opening => exact absurd (.inr rfl) hitem
    | closing => exact hcons _ (.inr (.inr rfl))
    | repetition _ _ => exact absurd rfl hkind
    | node _ _ _ => exact absurd (.inl rfl) hitem

theorem isRepetition_of_cut {repetition : Option Text} {rest : List Token} {t : Text}
    (hcut : Cut t (repetitionTokens repetition ++ rest)) : IsRepetition (textOf (repetitionTokens repetition)) := by
  cases repetition with
  | none => exact .inl rfl
  | some value =>
    obtain ⟨-, hpiece, -⟩ := @cut_cons t ⟨.repetition, value⟩ rest hcut
    cases hpiece with
    | repetition _ hcount => exact .inr ⟨_, by simp [textOf, repetitionTokens], isDecimal_of_count hcount⟩

/-- A bare lorem node is matched with its repetition. -/
theorem Bare.begins {tokens rest : List Token} {name modifiers : Text} {repetition : Option Text}
    (h : Bare tokens name modifiers repetition rest) (hcut : Cut (textOf tokens) tokens)
    (hfollow : ItemsFollow tokens) (hplain : Plain (textOf tokens)) :
    Begins ⟨name, modifiers, textOf (repetitionTokens repetition)⟩ (textOf tokens) := by
  have hsplit := hcut
  rw [h.split] at hsplit
  obtain ⟨-, -, hbehind⟩ := cut_cons hsplit
  obtain ⟨parts, hne, hparts, hmodifiers⟩ := h.parts
  have hmatched : Plain parts.flatten := by
    rw [h.textOf_eq, bareText, hmodifiers] at hplain
    exact (plain_append.1 (plain_append.1 (plain_append.1 hplain).1).2).1
  refine ⟨h.isName, ⟨parts, hne, fun part hpart => ?_, hmodifiers⟩, isRepetition_of_cut hbehind,
    textOf rest, h.textOf_eq, endsNode_of_cut (cut_right hbehind) (h.follow hfollow).1 h.ends⟩
  exact (modifier_iff_seen (hmatched.of_mem_flatten hpart)).1 (hparts part hpart)

/-! ## Plain abbreviations -/

theorem legible_of_cut {tokens : List Token} (hcut : Cut (textOf tokens) tokens) (hfollow : ItemsFollow tokens)
    (hplain : Plain (textOf tokens)) : Legible tokens := by
  induction tokens using bare_induction with
  | nil => exact .nil
  | bare tokens rest name modifiers repetition hbare ih =>
    have hrest : Cut (textOf rest) rest := by
      have hsplit := hcut
      rw [hbare.split] at hsplit
      exact cut_right (cut_cons hsplit).2.2
    have hleft := hplain
    rw [hbare.textOf_eq] at hleft
    exact .bare hbare (hbare.begins hcut hfollow hplain) rfl
      (ih hrest (hbare.follow hfollow).2 (plain_append.1 hleft).2)
  | other token rest hnot ih =>
    obtain ⟨-, -, hrest⟩ := cut_cons hcut
    have hleft : Plain (textOf rest) := (plain_append.1 hplain).2
    refine .other hnot (fun hkind => ?_) (ih hrest hfollow.tail hleft)
    obtain ⟨kind, value⟩ := token
    obtain rfl : kind = .node := hkind
    exact unmatched_node hcut hplain hnot

theorem legible_of_plain {t : Text} {tokens : List Token} (h : isMarkup t = .ok true)
    (htokens : tokenize t = .ok tokens) (hplain : Plain t) : Legible tokens := by
  have hcut := tokenize_eq_ok_iff.1 htokens
  have hfollow := itemsFollow_of_parse (parse_of_markup h hcut)
  obtain rfl : textOf tokens = t := hcut.flatMap_value
  exact legible_of_cut hcut hfollow hplain

/-- **In a plain abbreviation the bare lorem nodes are rewritten, and nothing else is.** -/
theorem tokenize_wrap_plain {t : Text} {tokens tokens' : List Token} (h : isMarkup t = .ok true)
    (htokens : tokenize t = .ok tokens) (hplain : Plain t) (hrewritten : Rewritten tokens tokens') :
    tokenize (wrap t) = .ok tokens' := by
  have hlegible := legible_of_plain h htokens hplain
  have hcut := tokenize_eq_ok_iff.1 htokens
  have hfollow := itemsFollow_of_parse (parse_of_markup h hcut)
  obtain rfl : textOf tokens = t := hcut.flatMap_value
  rw [(wrap_eq_iff hrewritten hcut hfollow).2 hlegible]
  exact tokenize_eq_ok_iff.2 (cut_rewritten hrewritten hcut)

example : wrap "ul>Lorem4-9.a#b*2+(p^lorem)".toList = "ul>(.a#b*2>Lorem4-9)+(p^lorem)".toList := by
  decide +kernel

end Shorthand.Expansion.Lorem
