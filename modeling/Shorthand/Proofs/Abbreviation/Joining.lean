/-
Markup abbreviations put together. What is joined by an operator, or put in brackets with a
repetition behind them, is read as the parts are: no token goes on across the seam
(`Cut.append`), and every group that is joined in a part is joined in the whole
(`Operands.joined_append`, `Expression.joined_mono`).
-/
import Shorthand.Proofs.Abbreviation.Verdict
import Shorthand.Proofs.Text.Numeral

namespace Shorthand.Abbreviation

open Text (isDigit isDecimal Run Stops)

/-! ## Trees -/

variable {after after' : List Token}

theorem Joins.append (h : Joins after) (tokens : List Token) : Joins (after ++ tokens) := by
  obtain ⟨token, hhead, hkind⟩ := h
  exact ⟨token, List.mem_head?_append_of_mem_head? hhead, hkind⟩

theorem joins_append_mono (h : Joins after → Joins after') (tokens : List Token) :
    Joins (tokens ++ after) → Joins (tokens ++ after') := by
  cases tokens with
  | nil => exact h
  | cons token tokens => exact id

theorem not_joins_closing (value : Text) (tokens : List Token) : ¬ Joins (⟨.closing, value⟩ :: tokens) := by
  simp [Joins]

mutual

/-- What stands behind a tree counts only in that it joins the groups at its end. -/
theorem Item.joined_mono (i : Item) {operand operand' : Bool} {after after' : List Token}
    (hoperand : operand = true → operand' = true) (hafter : Joins after → Joins after')
    (h : i.Joined operand after) : i.Joined operand' after' := by
  match i with
  | .node _ _ => trivial
  | .group _ inner closing repetition =>
    obtain ⟨hjoined, hinner⟩ := h
    refine ⟨hjoined.imp hoperand (joins_append_mono hafter _), inner.joined_mono ?_ hinner⟩
    exact fun hclosing => absurd hclosing (not_joins_closing closing _)

theorem Expression.joined_mono (e : Expression) {after after' : List Token}
    (hafter : Joins after → Joins after') (h : e.Joined after) : e.Joined after' := by
  match e with
  | .mk first more =>
    obtain ⟨hfirst, hmore⟩ := h
    exact ⟨first.joined_mono id (joins_append_mono hafter _) hfirst, more.joined_mono hafter hmore⟩

theorem Operands.joined_mono (o : Operands) {after after' : List Token}
    (hafter : Joins after → Joins after') (h : o.Joined after) : o.Joined after' := by
  match o with
  | .done => trivial
  | .plus => trivial
  | .operand _ right more =>
    obtain ⟨hright, hmore⟩ := h
    exact ⟨right.joined_mono id (joins_append_mono hafter _) hright, more.joined_mono hafter hmore⟩

end

/-- A tree is read without an error exactly when every group in it is joined. -/
theorem parse_tokens_eq_ok_iff (e : Expression) : parse e.tokens = .ok () ↔ e.Joined [] := by
  constructor
  · intro h
    rw [parse] at h
    split at h
    next => cases h
    next hlt he =>
      obtain ⟨e', htokens, hjoined⟩ := expression_sound he
      obtain ⟨rfl, -⟩ := e'.tokens_inj e (htokens.trans (List.append_nil _).symm) rfl rfl
      exact hjoined
    next => cases h
  · intro h
    obtain ⟨⟨left, hlt⟩, he, rfl⟩ := expression_complete e (List.append_nil _).symm h rfl
    rw [parse, he]

/-- The operands with others behind them. Behind a final `+` there is no place for any. -/
def Operands.append : Operands → Operands → Operands
  | .done, others => others
  | .plus, _ => .plus
  | .operand operator right more, others => .operand operator right (more.append others)

/-- No operator ends a list of tokens. -/
def EndsOpen (tokens : List Token) : Prop := ∀ token ∈ tokens.getLast?, token.kind ≠ .operator

theorem EndsOpen.right {tokens tokens' : List Token} (h : EndsOpen (tokens ++ tokens')) : EndsOpen tokens' :=
  fun token htoken => h token (List.mem_getLast?_append_of_mem_getLast? htoken)

theorem Operands.tokens_append {o : Operands} (h : EndsOpen o.tokens) (others : Operands) :
    (o.append others).tokens = o.tokens ++ others.tokens := by
  match o with
  | .done => rfl
  | .plus => exact absurd rfl (h ⟨.operator, ['+']⟩ rfl)
  | .operand operator right more =>
    have hmore : EndsOpen more.tokens := h.right
    simp only [Operands.append, Operands.tokens, tokens_append hmore, List.cons_append, List.append_assoc]

theorem Operands.joined_append {o : Operands} (h : EndsOpen o.tokens) (others : Operands) :
    (o.append others).Joined after ↔ o.Joined (others.tokens ++ after) ∧ others.Joined after := by
  match o with
  | .done => simp only [Operands.append, Operands.Joined, true_and]
  | .plus => exact absurd rfl (h ⟨.operator, ['+']⟩ rfl)
  | .operand operator right more =>
    have hmore : EndsOpen more.tokens := h.right
    simp only [Operands.append, Operands.Joined, tokens_append hmore, joined_append hmore, List.append_assoc,
      and_assoc]

/-! ## Cuts -/

theorem Cut.tokens_eq_nil {tokens : List Token} (h : Cut [] tokens) : tokens = [] := by
  have hvalues := h.flatMap_value
  rw [List.flatMap_eq_nil_iff] at hvalues
  refine List.eq_nil_iff_forall_not_mem.2 fun token htoken => ?_
  exact h.value_ne_nil token htoken (hvalues token htoken)

/-- A piece that ends a text may have a mark behind it, but a climb would go on. -/
theorem Piece.before_mark {kind : TokenKind} {value : Text} {c : Char} (h : Piece kind value [])
    (hmark : isMark c = true) (hclimb : c = '^' → kind ≠ .operator) (rest : Text) :
    Piece kind value (c :: rest) := by
  cases h with
  | operator hc => exact .operator hc
  | climb hrun => exact .climb ⟨hrun.all, Text.stops_cons.2 (by simpa using fun hc => hclimb hc rfl)⟩
  | opening => exact .opening
  | closing => exact .closing
  | repetition hrun hcount => exact .repetition ⟨hrun.all, Text.stops_cons.2 (isDigit_of_mark hmark)⟩ hcount
  | node hne hparts _ => exact .node hne hparts (noPart_of_mark (by simpa using hmark))

/-- **Texts are cut on their own** where a mark begins the second one and no climb goes on into it. -/
theorem Cut.append {s t : Text} {c : Char} {tokens tokens' : List Token} (h : Cut s tokens)
    (h' : Cut (c :: t) tokens') (hmark : isMark c = true) (hclimb : c = '^' → EndsOpen tokens) :
    Cut (s ++ c :: t) (tokens ++ tokens') := by
  induction h with
  | nil => exact h'
  | @cons kind value rest tokens hpiece hcut ih =>
    have hopen : c = '^' → EndsOpen ([⟨kind, value⟩] ++ tokens) := hclimb
    have hrest := ih fun hc => (hopen hc).right
    rw [List.append_assoc]
    refine .cons ?_ hrest
    cases rest with
    | nil =>
      obtain rfl := hcut.tokens_eq_nil
      exact hpiece.before_mark hmark (fun hc => hclimb hc _ rfl) t
    | cons d rest => exact hpiece.of_head hcut (.inl rfl)

/-- What is in brackets is cut on its own, whatever stands behind them. -/
theorem cut_group {s u : Text} {tokens tokens' : List Token} (h : Cut s tokens) (h' : Cut u tokens') :
    Cut ('(' :: (s ++ ')' :: u)) (⟨.opening, ['(']⟩ :: (tokens ++ ⟨.closing, [')']⟩ :: tokens')) := by
  have hclosing : Cut (')' :: u) (⟨.closing, [')']⟩ :: tokens') := .cons .closing h'
  exact .cons .opening (h.append hclosing (by decide) (fun hc => absurd hc (by decide)))

/-- The signs that join two items. -/
def IsOperator (c : Char) : Prop := c = '>' ∨ c = '+' ∨ c = '^'

theorem IsOperator.mark {c : Char} (h : IsOperator c) : isMark c = true := by
  rcases h with rfl | rfl | rfl <;> decide

theorem cut_operator {op : Char} {t : Text} {tokens : List Token} (hop : IsOperator op) (ht : BeginsMarkup t)
    (h : Cut t tokens) : Cut (op :: t) (⟨.operator, [op]⟩ :: tokens) := by
  have hstops : Stops (· == '^') t := by
    obtain ⟨c, hc, -, hstart⟩ := ht
    rw [Stops, Option.mem_def.1 hc]
    rintro _ ⟨⟩
    refine Bool.eq_false_iff.2 fun hclimb => ?_
    obtain rfl : c = '^' := by simpa using hclimb
    exact absurd hstart (by decide)
  rcases hop with rfl | rfl | rfl
  · exact .cons (.operator (.inl rfl)) h
  · exact .cons (.operator (.inr rfl)) h
  · exact .cons (.climb ⟨List.forall_mem_nil _, hstops⟩) h

theorem isDigit_of_number? {digits : Text} {n : Nat} (h : Text.number? digits = some n) :
    ∀ c ∈ digits, isDigit c = true := by
  intro c hc
  rw [isDigit, Bool.or_eq_true]
  left
  by_contra hdecimal
  rw [number?_of_not_decimal hc (by simpa using hdecimal)] at h
  cases h

/-! ## Texts -/

/-- A text, the doctype apart, that is read as a tree in which every group is joined. -/
structure ReadsAs (t : Text) (e : Expression) : Prop where
  begins : BeginsMarkup t
  cut : Cut t e.tokens
  joined : e.Joined []

theorem exists_readsAs {t : Text} (h : isMarkup t = .ok true) (hdoctype : t.head? ≠ some '!') :
    ∃ e, ReadsAs t e := by
  obtain ⟨-, ⟨rest, rfl, -⟩ | ⟨c, rest, tokens, rfl, hc, hstart, hcut, hparse⟩⟩ := isMarkup_eq_true_iff.1 h
  · exact absurd rfl hdoctype
  · obtain ⟨e, rfl⟩ := exists_expression_of_parse hparse
    exact ⟨e, ⟨c, rfl, hc, hstart⟩, hcut, (parse_tokens_eq_ok_iff e).1 hparse⟩

variable {s t : Text} {e e' : Expression}

theorem ReadsAs.tokenize_eq (h : ReadsAs t e) : tokenize t = .ok e.tokens := tokenize_eq_ok_iff.2 h.cut

theorem ReadsAs.isMarkup_eq_true {c : Char} (h : ReadsAs t e) (hc : c ∈ t) (hdigit : isDigit c = false) :
    isMarkup t = .ok true := by
  have hword : isEmptyOrDigits t = false := List.all_eq_false.2 ⟨c, hc, by simp [hdigit]⟩
  obtain ⟨d, hd, hne, hstart⟩ := h.begins
  obtain ⟨rest, rfl⟩ := List.head?_eq_some_iff.1 hd
  exact isMarkup_eq_true_iff.2
    ⟨hword, .inr ⟨d, rest, _, rfl, hne, hstart, h.cut, (parse_tokens_eq_ok_iff e).2 h.joined⟩⟩

/-- Two expressions with an operator between them. -/
def Expression.join (operator : Text) : Expression → Expression → Expression
  | .mk first more, .mk first' more' => .mk first (more.append (.operand operator first' more'))

theorem Expression.tokens_join {operator : Text} (h : EndsOpen e.tokens) (e' : Expression) :
    (e.join operator e').tokens = e.tokens ++ ⟨.operator, operator⟩ :: e'.tokens := by
  obtain ⟨first, more⟩ := e
  obtain ⟨first', more'⟩ := e'
  have hmore : EndsOpen more.tokens := h.right
  simp only [Expression.join, Expression.tokens, Operands.tokens_append hmore, Operands.tokens,
    List.cons_append, List.append_assoc]

/-- An operator joins what stands before it and what stands behind it. -/
theorem Expression.joined_join {operator : Text} (h : EndsOpen e.tokens) {first' : Item} {more' : Operands} :
    (e.join operator (.mk first' more')).Joined after ↔
      e.Joined (⟨.operator, operator⟩ :: (first'.tokens ++ (more'.tokens ++ after))) ∧
        first'.Joined true (more'.tokens ++ after) ∧ more'.Joined after := by
  obtain ⟨first, more⟩ := e
  have hmore : EndsOpen more.tokens := h.right
  simp only [Expression.join, Expression.Joined, Operands.joined_append hmore, Operands.tokens_append hmore,
    Operands.tokens, Operands.Joined, List.cons_append, List.append_assoc, and_assoc]

theorem ReadsAs.join {op : Char} (hs : ReadsAs s e) (ht : ReadsAs t e') (hop : IsOperator op)
    (hopen : EndsOpen e.tokens) : ReadsAs (s ++ op :: t) (e.join [op] e') where
  begins := by
    obtain ⟨c, hc, hstart⟩ := hs.begins
    exact ⟨c, List.mem_head?_append_of_mem_head? hc, hstart⟩
  cut := by
    rw [Expression.tokens_join hopen]
    exact hs.cut.append (cut_operator hop ht.begins ht.cut) hop.mark fun _ => hopen
  joined := by
    obtain ⟨first', more'⟩ := e'
    obtain ⟨hfirst', hmore'⟩ := ht.joined
    refine (Expression.joined_join hopen).2 ⟨e.joined_mono ?_ hs.joined, ?_, hmore'⟩
    · exact fun hnil => hnil.append _
    · exact first'.joined_mono (fun hfalse => absurd hfalse (by decide)) id hfirst'

/-- A group that is repeated. -/
def Expression.repeated (count : Text) (e : Expression) : Expression :=
  .mk (.group ['('] e [')'] (some ('*' :: count))) .done

theorem ReadsAs.repeated {digits : Text} {n : Nat} (hs : ReadsAs s e)
    (hdigits : Text.number? digits = some n) (hn : n ≤ maxRepeat) :
    ReadsAs ('(' :: (s ++ ')' :: '*' :: digits)) (e.repeated digits) where
  begins := ⟨'(', rfl, by decide, by decide⟩
  cut := by
    have hcount : Cut ('*' :: digits) [⟨.repetition, '*' :: digits⟩] := by
      have hpiece : Piece .repetition ('*' :: digits) [] :=
        .repetition ⟨isDigit_of_number? hdigits, Text.stops_nil _⟩ (.inr ⟨n, hn, hdigits⟩)
      simpa using Cut.cons hpiece .nil
    simpa [Expression.repeated, Expression.tokens, Item.tokens, Operands.tokens, repetitionTokens] using
      cut_group hs.cut hcount
  joined := by
    refine ⟨⟨.inr ⟨_, rfl, .inr rfl⟩, ?_⟩, trivial⟩
    exact e.joined_mono (fun hnil => hnil.append _) hs.joined

/-- **Abbreviations compose.** An operator between two of them gives an abbreviation, unless
the first one ends with an operator, and its tokens are those of the first, the operator and
those of the second. In brackets and with a repeat count behind them an abbreviation is one
as well, also when it ends with `+`. -/
theorem isMarkup_compose (hs : isMarkup s = .ok true) (ht : isMarkup t = .ok true)
    (hs' : s.head? ≠ some '!') (ht' : t.head? ≠ some '!') :
    ∃ tokens tokens', tokenize s = .ok tokens ∧ tokenize t = .ok tokens' ∧
      (∀ op, op = '>' ∨ op = '+' ∨ op = '^' → (∀ token ∈ tokens.getLast?, token.kind ≠ .operator) →
        isMarkup (s ++ op :: t) = .ok true ∧
        tokenize (s ++ op :: t) = .ok (tokens ++ ⟨.operator, [op]⟩ :: tokens')) ∧
      (∀ digits n, Text.number? digits = some n → n ≤ maxRepeat →
        isMarkup ('(' :: (s ++ ')' :: '*' :: digits)) = .ok true) ∧
      ∀ n ≤ maxRepeat, isMarkup ('(' :: (s ++ ')' :: '*' :: Text.ofNat n)) = .ok true := by
  obtain ⟨e, hreads⟩ := exists_readsAs hs hs'
  obtain ⟨e', hreads'⟩ := exists_readsAs ht ht'
  have hrepeated : ∀ digits n, Text.number? digits = some n → n ≤ maxRepeat →
      isMarkup ('(' :: (s ++ ')' :: '*' :: digits)) = .ok true := fun digits n hdigits hn =>
    (hreads.repeated hdigits hn).isMarkup_eq_true List.mem_cons_self (by decide)
  refine ⟨_, _, hreads.tokenize_eq, hreads'.tokenize_eq, fun op hop hopen => ?_, hrepeated, fun n hn => ?_⟩
  · have hjoin := hreads.join hreads' hop hopen
    refine ⟨hjoin.isMarkup_eq_true (c := op) (by simp) (isDigit_of_mark (IsOperator.mark hop)), ?_⟩
    rw [hjoin.tokenize_eq, Expression.tokens_join hopen]
  · have hsmall : n < 10 ^ Text.maxNumberLength := calc
      n < 10 ^ n := Nat.lt_pow_self (by decide)
      _ ≤ 10 ^ Text.maxNumberLength := Nat.pow_le_pow_right (by decide) (hn.trans (by decide))
    exact hrepeated _ n (Text.number?_ofNat hsmall) hn

/-- The blocks at the seam hold operators and brackets of their own, and what is repeated
ends with `+`. -/
theorem isMarkup_compose_blocks :
    let s := "(a\\>+)*2>p\x7b)^\x7d".toList
    let t := "#b[c=\"(\"]+".toList
    (isMarkup s = .ok true ∧ isMarkup t = .ok true ∧ s.head? ≠ some '!' ∧ t.head? ≠ some '!') ∧
      isMarkup (s ++ '^' :: t) = .ok true ∧
      isMarkup ('(' :: (t ++ ')' :: '*' :: Text.ofNat 100)) = .ok true := by
  intro s t
  let e : Expression :=
    .mk (.group ['('] (.mk (.node "a\\>".toList none) .plus) [')'] (some "*2".toList))
      (.operand ['>'] (.node "p\x7b)^\x7d".toList none) .done)
  let e' : Expression := .mk (.node "#b[c=\"(\"]".toList none) .plus
  have hreads : ReadsAs s e :=
    ⟨⟨'(', rfl, by decide, by decide⟩, tokenize_eq_ok_iff.1 (by decide +kernel),
      ⟨⟨.inr ⟨_, rfl, .inr rfl⟩, trivial, trivial⟩, trivial, trivial⟩⟩
  have hreads' : ReadsAs t e' :=
    ⟨⟨'#', rfl, by decide, by decide⟩, tokenize_eq_ok_iff.1 (by decide +kernel), trivial, trivial⟩
  have hs : isMarkup s = .ok true := hreads.isMarkup_eq_true (c := '(') (by decide) (by decide)
  have ht : isMarkup t = .ok true := hreads'.isMarkup_eq_true (c := '#') (by decide) (by decide)
  obtain ⟨tokens, _, htokens, -, hjoin, -⟩ := isMarkup_compose hs ht (by decide) (by decide)
  obtain ⟨_, _, -, -, -, -, hrepeated⟩ := isMarkup_compose ht hs (by decide) (by decide)
  have hopen : ∀ token ∈ tokens.getLast?, token.kind ≠ .operator := by
    rw [hreads.tokenize_eq, Except.ok.injEq] at htokens
    rw [← htokens]
    rintro _ ⟨⟩
    decide
  exact ⟨⟨hs, ht, by decide, by decide⟩, (hjoin '^' (.inr (.inr rfl)) hopen).1, hrepeated 100 (by decide)⟩

end Shorthand.Abbreviation
