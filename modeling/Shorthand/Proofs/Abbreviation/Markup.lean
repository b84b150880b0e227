/-
What it takes to be a markup abbreviation: a doctype, or a text whose pieces are an
expression of the grammar. In such an expression a node or a group is what comes first,
or stands right behind an operator or an opening bracket (`itemsFollow_of_parse`).
-/
import Shorthand.Abbreviation.Valid
import Shorthand.Proofs.Abbreviation.Piece
import Shorthand.Proofs.Abbreviation.Sentence

namespace Shorthand.Abbreviation

/-- Exclamation marks alone. -/
def IsDoctype (t : Text) : Prop := ∃ rest, t = '!' :: rest ∧ ∀ c ∈ rest, c = '!'

theorem isMarkup_eq_true_iff {t : Text} :
    isMarkup t = .ok true ↔ isEmptyOrDigits t = false ∧
      (IsDoctype t ∨ ∃ c rest tokens, t = c :: rest ∧ c ≠ '!' ∧ isMarkupStart c = true ∧
        Cut t tokens ∧ parse tokens = .ok ()) := by
  unfold isMarkup
  by_cases hword : isEmptyOrDigits t = true
  · simp [hword]
  rw [if_neg hword]
  rw [Bool.not_eq_true] at hword
  split
  next => cases hword
  next rest => simp [hword, IsDoctype]
  next c rest hc =>
    have hc : c ≠ '!' := hc
    have hdoctype : ¬ IsDoctype (c :: rest) := by
      rintro ⟨more, heq, -⟩
      exact hc (List.cons.inj heq).1
    by_cases hstart : isMarkupStart c = true
    · simp only [hstart, Bool.not_true, Bool.false_eq_true, if_false]
      cases htokens : tokenize (c :: rest) with
      | error fault =>
        have hcut : ∀ tokens, ¬ Cut (c :: rest) tokens := by
          intro tokens h
          rw [tokenize_eq_ok_iff.2 h] at htokens
          cases htokens
        cases fault <;> simp [hdoctype, hcut]
      | ok tokens =>
        have hcut := tokenize_eq_ok_iff.1 htokens
        cases hparse : parse tokens with
        | error why =>
          have hnot : ∀ tokens', Cut (c :: rest) tokens' → parse tokens' ≠ .ok () := by
            intro tokens' h
            rw [tokenize_eq_ok_iff.2 h, Except.ok.injEq] at htokens
            rw [htokens, hparse]
            simp
          simp only [hparse, false_iff, hdoctype, false_or, Except.ok.injEq, Bool.false_eq_true]
          rintro ⟨-, d, more, tokens', -, -, -, h, hok⟩
          exact hnot tokens' h hok
        | ok =>
          simp only [hparse, hword, true_and, true_iff]
          exact .inr ⟨c, rest, tokens, rfl, hc, hstart, hcut, hparse⟩
    · simp [hstart, hdoctype]

theorem not_cut_doctype {t : Text} {tokens : List Token} (h : IsDoctype t) : ¬ Cut t tokens := by
  obtain ⟨rest, rfl, -⟩ := h
  generalize htext : '!' :: rest = t
  intro hcut
  cases hcut with
  | nil => cases htext
  | cons hpiece _ =>
    rcases hpiece.head with ⟨-, c, more, rfl, hmark⟩ | ⟨-, part, more, rfl, hpart⟩
    · obtain ⟨rfl, -⟩ := List.cons.inj htext
      exact absurd hmark (by decide)
    · rw [List.append_assoc] at htext
      cases hpart with
      | name hc =>
        obtain ⟨rfl, -⟩ := List.cons.inj htext
        exact absurd hc (by decide)
      | sign hc =>
        obtain ⟨rfl, -⟩ := List.cons.inj htext
        exact absurd hc (by decide)
      | escaped _ => cases htext
      | attributes _ _ => cases htext
      | text _ => cases htext

/-- The tokens of a markup abbreviation are an expression. -/
theorem parse_of_markup {t : Text} {tokens : List Token} (h : isMarkup t = .ok true) (hcut : Cut t tokens) :
    parse tokens = .ok () := by
  obtain ⟨-, hdoctype | ⟨c, rest, tokens', rfl, -, -, hcut', hparse⟩⟩ := isMarkup_eq_true_iff.1 h
  · exact absurd hcut (not_cut_doctype hdoctype)
  · rw [← tokenize_eq_ok_iff] at hcut hcut'
    rw [hcut, Except.ok.injEq] at hcut'
    rwa [hcut']

/-- A node alone, or with a repetition, is an expression. -/
theorem parse_node (value : Text) (repetition : Option Text) :
    parse (⟨.node, value⟩ :: repetitionTokens repetition) = .ok () := by
  cases repetition with
  | none =>
    show parse [⟨.node, value⟩] = .ok ()
    simp [parse, expression, item, operands, skipRepetition]
  | some times =>
    show parse [⟨.node, value⟩, ⟨.repetition, times⟩] = .ok ()
    simp [parse, expression, item, operands, skipRepetition]

theorem exists_expression_of_parse {tokens : List Token} (h : parse tokens = .ok ()) :
    ∃ e : Expression, e.tokens = tokens := by
  rw [parse] at h
  split at h
  next => cases h
  next he =>
    obtain ⟨e, heq, -⟩ := expression_sound he
    exact ⟨e, by simpa using heq⟩
  next => cases h

/-! ## What stands before an item -/

/-- The first token of an item: a node or an opening bracket. -/
def BeginsItem (token : Token) : Prop := token.kind = .node ∨ token.kind = .opening

/-- Every item but the one that comes first stands behind an operator or an opening bracket. -/
def ItemsFollow (tokens : List Token) : Prop :=
  tokens.IsChain fun token next =>
    BeginsItem next → token.kind = .operator ∨ token.kind = .opening

/-- An item is not what comes first. -/
def NoItemFirst (tokens : List Token) : Prop := ∀ token ∈ tokens.head?, ¬ BeginsItem token

theorem itemsFollow_cons {token : Token} {rest : List Token} (h : ItemsFollow rest)
    (hfirst : NoItemFirst rest ∨ token.kind = .operator ∨ token.kind = .opening) :
    ItemsFollow (token :: rest) := by
  cases rest with
  | nil => exact .singleton _
  | cons next rest =>
    refine .cons_cons (fun hnext => ?_) h
    exact hfirst.resolve_left fun hno => hno next rfl hnext

theorem itemsFollow_repetition (repetition : Option Text) {after : List Token}
    (h : ItemsFollow after) (hfirst : NoItemFirst after) :
    ItemsFollow (repetitionTokens repetition ++ after) ∧
      NoItemFirst (repetitionTokens repetition ++ after) := by
  cases repetition with
  | none => exact ⟨h, hfirst⟩
  | some value => exact ⟨itemsFollow_cons h (.inl hfirst), by simp [NoItemFirst, BeginsItem, repetitionTokens]⟩

mutual

theorem Item.itemsFollow (i : Item) {after : List Token} (h : ItemsFollow after)
    (hfirst : NoItemFirst after) : ItemsFollow (i.tokens ++ after) := by
  match i with
  | .node value repetition =>
    obtain ⟨hrest, hno⟩ := itemsFollow_repetition repetition h hfirst
    exact itemsFollow_cons hrest (.inl hno)
  | .group opening inner closing repetition =>
    obtain ⟨hrest, hno⟩ := itemsFollow_repetition repetition h hfirst
    have hclosing : ItemsFollow (⟨.closing, closing⟩ :: (repetitionTokens repetition ++ after)) :=
      itemsFollow_cons hrest (.inl hno)
    have hinner := inner.itemsFollow hclosing (by simp [NoItemFirst, BeginsItem])
    simp only [Item.tokens, List.cons_append, List.append_assoc]
    exact itemsFollow_cons hinner (.inr (.inr rfl))

theorem Expression.itemsFollow (e : Expression) {after : List Token} (h : ItemsFollow after)
    (hfirst : NoItemFirst after) : ItemsFollow (e.tokens ++ after) := by
  match e with
  | .mk first more =>
    obtain ⟨hmore, hno⟩ := more.itemsFollow h hfirst
    rw [Expression.tokens, List.append_assoc]
    exact first.itemsFollow hmore hno

theorem Operands.itemsFollow (o : Operands) {after : List Token} (h : ItemsFollow after)
    (hfirst : NoItemFirst after) : ItemsFollow (o.tokens ++ after) ∧ NoItemFirst (o.tokens ++ after) := by
  match o with
  | .done => exact ⟨h, hfirst⟩
  | .plus => exact ⟨itemsFollow_cons h (.inl hfirst), by simp [NoItemFirst, BeginsItem, Operands.tokens]⟩
  | .operand operator right more =>
    obtain ⟨hmore, hno⟩ := more.itemsFollow h hfirst
    have hright := right.itemsFollow hmore hno
    simp only [Operands.tokens, List.cons_append, List.append_assoc]
    exact ⟨itemsFollow_cons hright (.inr (.inl rfl)), by simp [NoItemFirst, BeginsItem]⟩

end

theorem itemsFollow_of_parse {tokens : List Token} (h : parse tokens = .ok ()) : ItemsFollow tokens := by
  obtain ⟨e, rfl⟩ := exists_expression_of_parse h
  have hall : ItemsFollow (e.tokens ++ []) := e.itemsFollow .nil (by simp [NoItemFirst, BeginsItem])
  simpa using hall

end Shorthand.Abbreviation
