/-
Abbreviations in brackets. Whether a group is legal is told by what it is joined to and not by
what it holds: alone it is never an abbreviation, behind an operator or in front of an operator
or a repetition it always is one. Brackets around a group join it to nothing.
-/
import Shorthand.Proofs.Abbreviation.Joining

namespace Shorthand.Abbreviation

open Text (isDigit)

variable {s t u : Text} {e : Expression} {after : List Token}

/-- A text in `n` pairs of brackets. -/
def enclose : (n : Nat) → Text → Text
  | 0, t => t
  | n + 1, t => '(' :: (enclose n t ++ [')'])

/-- An expression in `n` pairs of brackets. -/
def Expression.enclosed : (n : Nat) → Expression → Expression
  | 0, e => e
  | n + 1, e => .mk (.group ['('] (e.enclosed n) [')'] none) .done

/-- What may stand behind an item: a repetition, and operators with right operands in which
every group is joined. -/
structure Continues (s : Text) (repetition : Option Text) (more : Operands) : Prop where
  cut : Cut s (repetitionTokens repetition ++ more.tokens)
  joined : more.Joined []

def Follows (s : Text) : Prop := ∃ repetition more, Continues s repetition more

/-! ## What follows a group -/

theorem continues_nil : Continues [] none .done := ⟨.nil, trivial⟩

/-- Whatever follows a group joins it. -/
theorem Continues.joins_iff {repetition : Option Text} {more : Operands} (h : Continues s repetition more) :
    Joins (repetitionTokens repetition ++ more.tokens) ↔ s ≠ [] := by
  constructor
  · rintro hjoins rfl
    rw [h.cut.tokens_eq_nil] at hjoins
    simp [Joins] at hjoins
  · intro hne
    cases repetition with
    | some value => exact ⟨_, rfl, .inr rfl⟩
    | none =>
      cases more with
      | done => exact absurd h.cut.flatMap_value.symm hne
      | plus => exact ⟨_, rfl, .inl rfl⟩
      | operand operator right more => exact ⟨_, rfl, .inl rfl⟩

/-! ## Enclosed expressions -/

theorem Expression.cut_enclosed (h : Cut t e.tokens) (n : Nat) : Cut (enclose n t) (e.enclosed n).tokens := by
  induction n with
  | zero => exact h
  | succ n ih =>
    simpa [enclose, enclosed, Expression.tokens, Item.tokens, Operands.tokens, repetitionTokens] using
      cut_group ih .nil

/-- Brackets in brackets are joined to nothing. -/
theorem Expression.joined_enclosed (h : e.Joined []) (n : Nat) (closing : Text) :
    (e.enclosed n).Joined (⟨.closing, closing⟩ :: after) ↔ n = 0 := by
  cases n with
  | zero =>
    refine iff_of_true (e.joined_mono (fun hnil => ?_) h) rfl
    simp [Joins] at hnil
  | succ n =>
    refine iff_of_false ?_ n.succ_ne_zero
    rintro ⟨⟨hfalse | hjoins, -⟩, -⟩
    · cases hfalse
    · exact not_joins_closing closing after hjoins

theorem Item.joined_enclosed (h : e.Joined []) (n : Nat) (operand : Bool) (repetition : Option Text) :
    (Item.group ['('] (e.enclosed n) [')'] repetition).Joined operand after ↔
      (operand = true ∨ Joins (repetitionTokens repetition ++ after)) ∧ n = 0 := by
  rw [Item.Joined, Expression.joined_enclosed h]

/-- A group with what follows it. -/
def Expression.groupWith (n : Nat) (repetition : Option Text) (more : Operands) (e : Expression) : Expression :=
  .mk (.group ['('] (e.enclosed n) [')'] repetition) more

theorem cut_groupWith {repetition : Option Text} {more : Operands} (ht : Cut t e.tokens)
    (hs : Continues s repetition more) (n : Nat) :
    Cut (enclose (n + 1) t ++ s) (e.groupWith n repetition more).tokens := by
  simpa [enclose, Expression.groupWith, Expression.tokens, Item.tokens] using
    cut_group (Expression.cut_enclosed ht n) hs.cut

theorem begins_enclose (n : Nat) (t s : Text) : BeginsMarkup (enclose (n + 1) t ++ s) :=
  ⟨'(', rfl, by decide, by decide⟩

/-- A text that is cut into the tokens of a tree is an abbreviation exactly when the groups of
the tree are joined. -/
theorem isMarkup_eq_of_cut {b : Bool} {c : Char} (hbegins : BeginsMarkup t) (hcut : Cut t e.tokens)
    (hc : c ∈ t) (hdigit : isDigit c = false) (hjoined : e.Joined [] ↔ b = true) : isMarkup t = .ok b := by
  cases b with
  | true => exact ReadsAs.isMarkup_eq_true ⟨hbegins, hcut, hjoined.2 rfl⟩ hc hdigit
  | false =>
    have hrefused : parse e.tokens ≠ .ok () := fun hok =>
      Bool.false_ne_true (hjoined.1 ((parse_tokens_eq_ok_iff e).1 hok))
    refine isMarkup_of_refused ?_ (.inr ?_)
    · rintro ⟨rest, rfl, -⟩
      obtain ⟨d, hd, hne, -⟩ := hbegins
      exact hne (Option.some.inj hd).symm
    · cases hparse : parse e.tokens with
      | ok => exact absurd hparse hrefused
      | error why => exact ⟨_, why, tokenize_eq_ok_iff.2 hcut, hparse⟩

/-- **A group is an abbreviation exactly when it is joined**, whatever it holds. With nothing
behind it, it is none; with a repetition or an operator behind it, or an operator before it, it
is one. A group in further brackets is none in any of these places. -/
theorem isMarkup_enclose (ht : isMarkup t = .ok true) (ht' : t.head? ≠ some '!') (n : Nat) :
    isMarkup (enclose (n + 1) t) = .ok false ∧
    (∀ s, Follows s → s ≠ [] → isMarkup (enclose (n + 1) t ++ s) = .ok (decide (n = 0))) ∧
    ∀ u op tokens s, isMarkup u = .ok true → u.head? ≠ some '!' → tokenize u = .ok tokens →
      (∀ token ∈ tokens.getLast?, token.kind ≠ .operator) → op = '>' ∨ op = '+' ∨ op = '^' → Follows s →
      isMarkup (u ++ op :: (enclose (n + 1) t ++ s)) = .ok (decide (n = 0)) := by
  obtain ⟨e, hreads⟩ := exists_readsAs ht ht'
  have halone : ∀ s, Follows s →
      isMarkup (enclose (n + 1) t ++ s) = .ok (decide (s ≠ [] ∧ n = 0)) := by
    rintro s ⟨repetition, more, hs⟩
    refine isMarkup_eq_of_cut (begins_enclose n t s) (cut_groupWith hreads.cut hs n) (c := '(')
      List.mem_cons_self (by decide) ?_
    have hitem : (Item.group ['('] (e.enclosed n) [')'] repetition).Joined false (more.tokens ++ []) ↔ _ :=
      Item.joined_enclosed hreads.joined n false repetition
    rw [List.append_nil, hs.joins_iff] at hitem
    simp [Expression.groupWith, Expression.Joined, hitem, hs.joined]
  refine ⟨?_, fun s hs hne => ?_, fun u op tokens s hu hu' htokens hopen hop hs => ?_⟩
  · simpa using halone [] ⟨_, _, continues_nil⟩
  · simpa [hne] using halone s hs
  · obtain ⟨e', hreads'⟩ := exists_readsAs hu hu'
    obtain ⟨repetition, more, hs⟩ := hs
    obtain rfl : e'.tokens = tokens := Except.ok.inj (hreads'.tokenize_eq.symm.trans htokens)
    have hbehind := begins_enclose n t s
    have hbegins : BeginsMarkup (u ++ op :: (enclose (n + 1) t ++ s)) := by
      obtain ⟨c, hc, hstart⟩ := hreads'.begins
      exact ⟨c, List.mem_head?_append_of_mem_head? hc, hstart⟩
    have hcut := hreads'.cut.append (cut_operator hop hbehind (cut_groupWith hreads.cut hs n))
      (IsOperator.mark hop) fun _ => hopen
    rw [← Expression.tokens_join hopen] at hcut
    refine isMarkup_eq_of_cut hbegins hcut (c := op) (by simp) (isDigit_of_mark (IsOperator.mark hop)) ?_
    have hfirst : e'.Joined (⟨.operator, [op]⟩ ::
        ((Item.group ['('] (e.enclosed n) [')'] repetition).tokens ++ more.tokens)) :=
      e'.joined_mono (fun hnil => hnil.append _) hreads'.joined
    simp [Expression.groupWith, Expression.joined_join hopen, hfirst, Item.joined_enclosed hreads.joined,
      hs.joined]

theorem readsAs_list :
    ReadsAs "ul>li".toList (.mk (.node "ul".toList none) (.operand ['>'] (.node "li".toList none) .done)) :=
  ⟨⟨'u', rfl, by decide, by decide⟩, tokenize_eq_ok_iff.1 (by decide +kernel), trivial, trivial, trivial⟩

/-- Alone, twice in brackets, repeated, and as the operand of a climb. -/
theorem isMarkup_enclose_list :
    let t := "ul>li".toList
    (isMarkup t = .ok true ∧ t.head? ≠ some '!') ∧
      isMarkup "(ul>li)".toList = .ok false ∧
      isMarkup "((ul>li))*3".toList = .ok false ∧
      isMarkup "(ul>li)*3".toList = .ok true ∧
      isMarkup "(a)*+b^(ul>li)".toList = .ok true := by
  intro t
  let e : Expression := .mk (.group ['('] (.mk (.node ['a'] none) .done) [')'] (some ['*']))
    (.operand ['+'] (.node ['b'] none) .done)
  have hreads : ReadsAs "(a)*+b".toList e :=
    ⟨⟨'(', rfl, by decide, by decide⟩, tokenize_eq_ok_iff.1 (by decide +kernel),
      ⟨⟨.inr ⟨_, rfl, .inr rfl⟩, trivial, trivial⟩, trivial, trivial⟩⟩
  have ht : isMarkup t = .ok true := readsAs_list.isMarkup_eq_true (c := '>') (by decide) (by decide)
  have hbefore : isMarkup "(a)*+b".toList = .ok true := hreads.isMarkup_eq_true (c := '(') (by decide) (by decide)
  have hopen : ∀ token ∈ e.tokens.getLast?, token.kind ≠ .operator := by
    rintro _ ⟨⟩
    decide
  have htimes : Follows "*3".toList :=
    ⟨some "*3".toList, .done, tokenize_eq_ok_iff.1 (by decide +kernel), trivial⟩
  obtain ⟨halone, hbehind, hoperand⟩ := isMarkup_enclose ht (by decide) 0
  obtain ⟨-, htwice, -⟩ := isMarkup_enclose ht (by decide) 1
  exact ⟨⟨ht, by decide⟩, halone, htwice _ htimes (by decide), hbehind _ htimes (by decide),
    hoperand _ '^' _ [] hbefore (by decide) hreads.tokenize_eq hopen (.inr (.inr rfl)) ⟨_, _, continues_nil⟩⟩

/-- **It is not enough that a group holds more than a word**: `(ul>li)` alone is no abbreviation. -/
theorem isMarkup_enclose_not_always :
    ¬ ∀ t tokens, isMarkup t = .ok true → t.head? ≠ some '!' → tokenize t = .ok tokens →
      (¬ ∃ value, tokens = [⟨.node, value⟩] ∧ ∀ c ∈ value, isNameChar c = true) →
      ∀ n, isMarkup (enclose (n + 1) t) = .ok true := by
  intro claim
  have ht := readsAs_list.isMarkup_eq_true (c := '>') (by decide) (by decide)
  have haccepted := claim _ _ ht (by decide) readsAs_list.tokenize_eq
    (by simp [Expression.tokens, Item.tokens, Operands.tokens, repetitionTokens]) 0
  have hrefused : isMarkup (enclose 1 "ul>li".toList) = .ok false := by
    refine isMarkup_eq_of_cut (begins_enclose 0 "ul>li".toList []) (cut_groupWith readsAs_list.cut continues_nil 0)
      (c := '(') List.mem_cons_self (by decide) ?_
    simp [Expression.groupWith, Expression.Joined, Item.Joined, Joins, repetitionTokens, Operands.tokens]
  rw [hrefused] at haccepted
  cases haccepted

end Shorthand.Abbreviation
