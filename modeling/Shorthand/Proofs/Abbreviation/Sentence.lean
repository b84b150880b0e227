/-
The sentences of the grammar of markup abbreviations as trees, apart from the way in
which they are read: the tokens of a tree, and whether every group in it is joined.
`item_sound` and `item_complete`, with the like for the rest of the grammar, say that
reading by descent finds a joined tree in front of a list of tokens exactly when there
is one.
-/
import Shorthand.Abbreviation.Grammar

namespace Shorthand.Abbreviation

mutual

/-- `(node | '(' expression ')') repetition?`, with the texts of the tokens. -/
inductive Item where
  | node (value : Text) (repetition : Option Text)
  | group (opening : Text) (inner : Expression) (closing : Text) (repetition : Option Text)

/-- `item (operator item)* ['+']`. -/
inductive Expression where
  | mk (first : Item) (more : Operands)

/-- What goes on an expression behind its first item. -/
inductive Operands where
  | done
  | plus
  | operand (operator : Text) (right : Item) (more : Operands)

end

def repetitionTokens (repetition : Option Text) : List Token :=
  repetition.toList.map fun value => ⟨.repetition, value⟩

mutual

def Item.tokens : Item → List Token
  | .node value repetition => ⟨.node, value⟩ :: repetitionTokens repetition
  | .group opening inner closing repetition =>
    ⟨.opening, opening⟩ :: inner.tokens ++ ⟨.closing, closing⟩ :: repetitionTokens repetition

def Expression.tokens : Expression → List Token
  | .mk first more => first.tokens ++ more.tokens

def Operands.tokens : Operands → List Token
  | .done => []
  | .plus => [⟨.operator, ['+']⟩]
  | .operand operator right more => ⟨.operator, operator⟩ :: right.tokens ++ more.tokens

end

/-- An operator or a repetition comes next. -/
def Joins (after : List Token) : Prop :=
  ∃ t ∈ after.head?, t.kind = .operator ∨ t.kind = .repetition

mutual

/-- Every group is the right operand of an operator, or an operator or a repetition
stands right behind its closing bracket. `operand` says that the item itself is a right
operand, and `after` is all that stands behind it. -/
def Item.Joined (operand : Bool) (after : List Token) : Item → Prop
  | .node _ _ => True
  | .group _ inner closing repetition =>
    (operand = true ∨ Joins (repetitionTokens repetition ++ after)) ∧
      inner.Joined (⟨.closing, closing⟩ :: (repetitionTokens repetition ++ after))

def Expression.Joined (after : List Token) : Expression → Prop
  | .mk first more => first.Joined false (more.tokens ++ after) ∧ more.Joined after

def Operands.Joined (after : List Token) : Operands → Prop
  | .done => True
  | .plus => True
  | .operand _ right more => right.Joined true (more.tokens ++ after) ∧ more.Joined after

end

/-- A list of tokens is one expression, and every group in it is joined. -/
def Sentence (tokens : List Token) : Prop :=
  (∃ e : Expression, e.tokens = tokens) ∧ ∀ e : Expression, e.tokens = tokens → e.Joined []

/-! ## What comes next -/

theorem joinsNext_iff {after : List Token} : joinsNext after = true ↔ Joins after := by
  cases after with
  | nil => simp [joinsNext, Joins]
  | cons t after => simp [joinsNext, Joins]

theorem skipRepetition_sound (tokens : List Token) :
    ∃ repetition, repetitionTokens repetition ++ (skipRepetition tokens).1 = tokens := by
  cases tokens with
  | nil => exact ⟨none, rfl⟩
  | cons t rest =>
    by_cases h : t.kind = .repetition
    · refine ⟨some t.value, ?_⟩
      rw [skipRepetition, if_pos h]
      show ⟨.repetition, t.value⟩ :: rest = t :: rest
      rw [← h]
    · refine ⟨none, ?_⟩
      rw [skipRepetition, if_neg h]
      rfl

/-- A repetition does not come next. -/
def NoRepetition (after : List Token) : Prop := ∀ t ∈ after.head?, t.kind ≠ .repetition

theorem skipRepetition_complete (repetition : Option Text) {after : List Token}
    (h : NoRepetition after) : (skipRepetition (repetitionTokens repetition ++ after)).1 = after := by
  cases repetition with
  | some value => rfl
  | none =>
    cases after with
    | nil => rfl
    | cons t rest =>
      have ht : t.kind ≠ .repetition := h t rfl
      show (skipRepetition (t :: rest)).1 = t :: rest
      rw [skipRepetition, if_neg ht]

theorem endsHere_iff {after : List Token} :
    endsHere after = true ↔ ∀ t ∈ after.head?, t.kind = .closing := by
  cases after with
  | nil => simp [endsHere]
  | cons t after => simp [endsHere]

theorem endsHere_item (i : Item) (after : List Token) : endsHere (i.tokens ++ after) = false := by
  cases i with
  | node value repetition => rfl
  | group opening inner closing repetition => rfl

theorem endsHere_expression (e : Expression) (after : List Token) :
    endsHere (e.tokens ++ after) = false := by
  obtain ⟨first, more⟩ := e
  rw [Expression.tokens, List.append_assoc]
  exact endsHere_item first _

/-- Behind an item comes an operator, or the end of its expression. -/
theorem Operands.noRepetition (o : Operands) {after : List Token} (h : endsHere after = true) :
    NoRepetition (o.tokens ++ after) := by
  intro t ht
  cases o with
  | done =>
    have hc := endsHere_iff.1 h t (by simpa [Operands.tokens] using ht)
    simp [hc]
  | plus =>
    obtain rfl : _ = t := by simpa [Operands.tokens] using ht
    simp
  | operand operator right more =>
    obtain rfl : _ = t := by simpa [Operands.tokens] using ht
    simp

/-! ## A list of tokens has one tree -/

theorem repetitionTokens_inj {r r' : Option Text} {after after' : List Token}
    (h : repetitionTokens r ++ after = repetitionTokens r' ++ after') (hr : NoRepetition after)
    (hr' : NoRepetition after') : r = r' ∧ after = after' := by
  cases r with
  | none =>
    cases r' with
    | none => exact ⟨rfl, h⟩
    | some value =>
      obtain rfl : after = ⟨.repetition, value⟩ :: after' := h
      exact absurd rfl (hr _ rfl)
  | some value =>
    cases r' with
    | none =>
      obtain rfl : ⟨.repetition, value⟩ :: after = after' := h
      exact absurd rfl (hr' _ rfl)
    | some value' => simpa [repetitionTokens] using h

mutual

theorem Item.tokens_inj (i i' : Item) {after after' : List Token}
    (h : i.tokens ++ after = i'.tokens ++ after') (hr : NoRepetition after)
    (hr' : NoRepetition after') : i = i' ∧ after = after' := by
  match i, i' with
  | .node value repetition, .node value' repetition' =>
    simp only [Item.tokens, List.cons_append, List.cons.injEq, Token.mk.injEq, true_and] at h
    obtain ⟨rfl, h⟩ := h
    obtain ⟨rfl, rfl⟩ := repetitionTokens_inj h hr hr'
    exact ⟨rfl, rfl⟩
  | .node _ _, .group _ _ _ _ => simp [Item.tokens] at h
  | .group _ _ _ _, .node _ _ => simp [Item.tokens] at h
  | .group opening inner closing repetition, .group opening' inner' closing' repetition' =>
    simp only [Item.tokens, List.cons_append, List.append_assoc, List.cons.injEq, Token.mk.injEq,
      true_and] at h
    obtain ⟨rfl, h⟩ := h
    obtain ⟨rfl, hclosing⟩ := Expression.tokens_inj inner inner' h rfl rfl
    simp only [List.cons.injEq, Token.mk.injEq, true_and] at hclosing
    obtain ⟨rfl, hrest⟩ := hclosing
    obtain ⟨rfl, rfl⟩ := repetitionTokens_inj hrest hr hr'
    exact ⟨rfl, rfl⟩

theorem Expression.tokens_inj (e e' : Expression) {after after' : List Token}
    (h : e.tokens ++ after = e'.tokens ++ after') (hend : endsHere after = true)
    (hend' : endsHere after' = true) : e = e' ∧ after = after' := by
  match e, e' with
  | .mk first more, .mk first' more' =>
    simp only [Expression.tokens, List.append_assoc] at h
    obtain ⟨rfl, hmore⟩ :=
      Item.tokens_inj first first' h (more.noRepetition hend) (more'.noRepetition hend')
    obtain ⟨rfl, rfl⟩ := Operands.tokens_inj more more' hmore hend hend'
    exact ⟨rfl, rfl⟩

theorem Operands.tokens_inj (o o' : Operands) {after after' : List Token}
    (h : o.tokens ++ after = o'.tokens ++ after') (hend : endsHere after = true)
    (hend' : endsHere after' = true) : o = o' ∧ after = after' := by
  match o, o' with
  | .done, .done => exact ⟨rfl, h⟩
  | .plus, .plus => simpa [Operands.tokens] using h
  | .operand value right more, .operand value' right' more' =>
    simp only [Operands.tokens, List.cons_append, List.append_assoc, List.cons.injEq,
      Token.mk.injEq, true_and] at h
    obtain ⟨rfl, h⟩ := h
    obtain ⟨rfl, hmore⟩ :=
      Item.tokens_inj right right' h (more.noRepetition hend) (more'.noRepetition hend')
    obtain ⟨rfl, rfl⟩ := Operands.tokens_inj more more' hmore hend hend'
    exact ⟨rfl, rfl⟩
  -- An operator in front of what ends the expression.
  | .done, .plus | .done, .operand _ _ _ =>
    obtain rfl : after = _ := h
    cases hend
  | .plus, .done | .operand _ _ _, .done =>
    obtain rfl : _ = after' := h
    cases hend'
  -- An item where the expression ends.
  | .plus, .operand _ right more =>
    simp only [Operands.tokens, List.cons_append, List.nil_append, List.append_assoc,
      List.cons.injEq] at h
    rw [h.2, endsHere_item] at hend
    cases hend
  | .operand _ right more, .plus =>
    simp only [Operands.tokens, List.cons_append, List.nil_append, List.append_assoc,
      List.cons.injEq] at h
    rw [← h.2, endsHere_item] at hend'
    cases hend'

end

/-! ## Whatever is read is a tree -/

mutual

theorem item_sound {operand : Bool} {tokens : List Token} {rest : Rest tokens}
    (h : item operand tokens = .ok rest) :
    ∃ i : Item, i.tokens ++ rest.1 = tokens ∧ i.Joined operand rest.1 := by
  match tokens with
  | [] => rw [item] at h; cases h
  | ⟨.node, value⟩ :: after =>
    rw [item] at h
    cases h
    obtain ⟨repetition, hr⟩ := skipRepetition_sound after
    exact ⟨.node value repetition, by simpa [Item.tokens] using hr, trivial⟩
  | ⟨.opening, value⟩ :: inside =>
    rw [item] at h
    split at h
    · cases h
    split at h
    · cases h
    next closing after hlt he =>
      split at h
      next hj =>
        cases h
        obtain ⟨inner, hi, hinner⟩ := expression_sound he
        obtain ⟨repetition, hr⟩ := skipRepetition_sound after
        refine ⟨.group value inner closing repetition, ?_, ?_, ?_⟩
        · simp [Item.tokens, hr, hi]
        · rw [hr, ← joinsNext_iff]
          simpa using hj
        · simpa [hr] using hinner
      next => cases h
    · cases h
  | ⟨.operator, _⟩ :: _ | ⟨.closing, _⟩ :: _ | ⟨.repetition, _⟩ :: _ | ⟨.foreign _ _, _⟩ :: _ =>
    rw [item] at h
    · cases h
    all_goals simp
termination_by (tokens.length, 0)

theorem expression_sound {tokens : List Token} {rest : Rest tokens}
    (h : expression tokens = .ok rest) :
    ∃ e : Expression, e.tokens ++ rest.1 = tokens ∧ e.Joined rest.1 := by
  rw [expression] at h
  split at h
  · cases h
  next behind hlt hi =>
    split at h
    · cases h
    next left hle ho =>
      cases h
      obtain ⟨first, hf, hfirst⟩ := item_sound hi
      obtain ⟨more, hm, hmore⟩ := operands_sound ho
      refine ⟨.mk first more, ?_, ?_, hmore⟩
      · rw [Expression.tokens, List.append_assoc, hm, hf]
      · rwa [hm]
termination_by (tokens.length, 1)

theorem operands_sound {tokens : List Token} {rest : { rest : List Token // rest.length ≤ tokens.length }}
    (h : operands tokens = .ok rest) :
    ∃ o : Operands, o.tokens ++ rest.1 = tokens ∧ o.Joined rest.1 := by
  match tokens with
  | ⟨.operator, value⟩ :: right =>
    rw [operands] at h
    split at h
    · split at h
      next hv =>
        cases h
        exact ⟨.plus, by simp [Operands.tokens, hv], trivial⟩
      next => cases h
    · split at h
      · cases h
      next behind hlt hi =>
        split at h
        · cases h
        next left hle ho =>
          cases h
          obtain ⟨i, ht, hj⟩ := item_sound hi
          obtain ⟨more, hm, hmore⟩ := operands_sound ho
          refine ⟨.operand value i more, ?_, ?_, hmore⟩
          · simp [Operands.tokens, hm, ht]
          · rwa [hm]
  | [] | ⟨.node, _⟩ :: _ | ⟨.opening, _⟩ :: _ | ⟨.closing, _⟩ :: _ | ⟨.repetition, _⟩ :: _ |
    ⟨.foreign _ _, _⟩ :: _ =>
    rw [operands] at h
    · cases h
      exact ⟨.done, rfl, trivial⟩
    · simp
termination_by (tokens.length, 0)

end

/-! ## Every tree is read -/

mutual

theorem item_complete (i : Item) {operand : Bool} {tokens after : List Token}
    (ht : tokens = i.tokens ++ after) (hj : i.Joined operand after) (hr : NoRepetition after) :
    ∃ rest : Rest tokens, item operand tokens = .ok rest ∧ rest.1 = after := by
  match i with
  | .node value repetition =>
    obtain rfl : tokens = ⟨.node, value⟩ :: (repetitionTokens repetition ++ after) := ht
    rw [item]
    exact ⟨_, rfl, skipRepetition_complete repetition hr⟩
  | .group opening inner closing repetition =>
    obtain ⟨hjoined, hinner⟩ := hj
    simp only [Item.tokens, List.cons_append, List.append_assoc] at ht
    subst ht
    obtain ⟨⟨left, hlt⟩, he, rfl⟩ := expression_complete inner rfl hinner rfl
    have hjn : (operand || joinsNext (repetitionTokens repetition ++ after)) = true := by
      rw [Bool.or_eq_true, joinsNext_iff]
      exact hjoined
    rw [item, if_neg (by simp [endsHere_expression]), he]
    simp only [hjn, if_true]
    exact ⟨_, rfl, skipRepetition_complete repetition hr⟩

theorem expression_complete (e : Expression) {tokens after : List Token}
    (ht : tokens = e.tokens ++ after) (hj : e.Joined after) (hend : endsHere after = true) :
    ∃ rest : Rest tokens, expression tokens = .ok rest ∧ rest.1 = after := by
  obtain ⟨first, more⟩ := e
  obtain ⟨hfirst, hmore⟩ := hj
  rw [Expression.tokens, List.append_assoc] at ht
  obtain ⟨⟨behind, hlt⟩, hi, rfl⟩ := item_complete first ht hfirst (more.noRepetition hend)
  obtain ⟨⟨left, hle⟩, ho, hleft⟩ := operands_complete more rfl hmore hend
  rw [expression, hi]
  simp only [ho]
  exact ⟨_, rfl, hleft⟩

theorem operands_complete (o : Operands) {tokens after : List Token}
    (ht : tokens = o.tokens ++ after) (hj : o.Joined after) (hend : endsHere after = true) :
    ∃ rest : { rest : List Token // rest.length ≤ tokens.length },
      operands tokens = .ok rest ∧ rest.1 = after := by
  match o with
  | .done =>
    obtain rfl : tokens = after := ht
    rw [operands]
    · exact ⟨_, rfl, rfl⟩
    · rintro value rest rfl
      simp [endsHere] at hend
  | .plus =>
    obtain rfl : tokens = ⟨.operator, ['+']⟩ :: after := ht
    rw [operands, if_pos hend, if_pos rfl]
    exact ⟨_, rfl, rfl⟩
  | .operand operator right more =>
    obtain ⟨hright, hmore⟩ := hj
    simp only [Operands.tokens, List.cons_append, List.append_assoc] at ht
    subst ht
    obtain ⟨⟨behind, hlt⟩, hi, rfl⟩ := item_complete right rfl hright (more.noRepetition hend)
    obtain ⟨⟨left, hle⟩, ho, hleft⟩ := operands_complete more rfl hmore hend
    rw [operands, if_neg (by simp [endsHere_item]), hi]
    simp only [ho]
    exact ⟨_, rfl, hleft⟩

end

/-- **A list of tokens is read without an error exactly when it is a sentence** of the
grammar in which every group is joined, however deep the groups are nested; all other
lists are refused. -/
theorem parse_eq_ok_iff_sentence (tokens : List Token) :
    (parse tokens = .ok () ↔ Sentence tokens) ∧
      ((∃ why : Malformed, parse tokens = .error why) ↔ ¬ Sentence tokens) := by
  have accepts : parse tokens = .ok () ↔ Sentence tokens := by
    constructor
    · intro h
      rw [parse] at h
      split at h
      · cases h
      next hlt he =>
        obtain ⟨e, ht, hj⟩ := expression_sound he
        rw [List.append_nil] at ht
        refine ⟨⟨e, ht⟩, fun e' ht' => ?_⟩
        obtain ⟨rfl, -⟩ := e'.tokens_inj e (congrArg (· ++ []) (ht'.trans ht.symm)) rfl rfl
        exact hj
      · cases h
    · rintro ⟨⟨e, rfl⟩, hall⟩
      have hj := hall e rfl
      obtain ⟨⟨left, hlt⟩, he, rfl⟩ := expression_complete e (List.append_nil _).symm hj rfl
      rw [parse, he]
  refine ⟨accepts, ?_⟩
  rw [← accepts]
  cases parse tokens with
  | ok => simp
  | error why => simp

end Shorthand.Abbreviation
