/-
The grammar of markup abbreviations, checked by recursive descent over the tokens:

  expression := item (operator item)* ['+']
  item       := (node | '(' expression ')') repetition?

A group has to be joined to something: it follows an operator, or an operator or a
repetition follows it.

Groups may be nested to any depth. The limit that a stack sets to the descent is left out; the
readers of sources have theirs (`Data.Obstacle.tooDeep`).
-/
import Shorthand.Abbreviation.Token

namespace Shorthand.Abbreviation

/-- The tokens left after something was read from `tokens`. -/
abbrev Rest (tokens : List Token) := { rest : List Token // rest.length < tokens.length }

/-- The tokens left after an optional repetition. -/
def skipRepetition : (tokens : List Token) → { rest : List Token // rest.length ≤ tokens.length }
  | [] => ⟨[], by simp⟩
  | t :: rest => if t.kind = .repetition then ⟨rest, by simp⟩ else ⟨t :: rest, by simp⟩

/-- Whether the next token joins a group to what follows it. -/
def joinsNext : List Token → Bool
  | [] => false
  | t :: _ => t.kind == .operator || t.kind == .repetition

/-- Whether an expression ends here: at a closing bracket or at the end. -/
def endsHere : List Token → Bool
  | [] => true
  | t :: _ => t.kind == .closing

mutual

/-- Reads an item; `joined` says that it is the right operand of an operator. -/
def item (joined : Bool) (tokens : List Token) : Except Malformed (Rest tokens) :=
  match tokens with
  | [] => .error .unexpectedEnd
  | ⟨.node, _⟩ :: rest =>
    let left := skipRepetition rest
    .ok ⟨left, by have := left.2; simp; omega⟩
  | ⟨.opening, _⟩ :: rest =>
    if endsHere rest then .error .emptyGroup
    else match expression rest with
      | .error why => .error why
      | .ok ⟨⟨.closing, _⟩ :: after, h⟩ =>
        if joined || joinsNext after then
          let left := skipRepetition after
          .ok ⟨left, by have := left.2; simp at h ⊢; omega⟩
        else .error .detachedGroup
      | .ok _ => .error .unbalancedGroup
  | t :: _ => .error (.unexpectedToken t.value)
termination_by (tokens.length, 0)

/-- Reads an expression. -/
def expression (tokens : List Token) : Except Malformed (Rest tokens) :=
  match item false tokens with
  | .error why => .error why
  | .ok ⟨rest, h⟩ => match operands rest with
    | .error why => .error why
    | .ok ⟨left, h'⟩ => .ok ⟨left, by omega⟩
termination_by (tokens.length, 1)

/-- Reads the operators and operands that go on an expression. A `+` may end it. -/
def operands (tokens : List Token) :
    Except Malformed { rest : List Token // rest.length ≤ tokens.length } :=
  match tokens with
  | ⟨.operator, value⟩ :: rest =>
    if endsHere rest then
      if value = ['+'] then .ok ⟨rest, by simp⟩ else .error .danglingOperator
    else match item true rest with
      | .error why => .error why
      | .ok ⟨rest', h⟩ => match operands rest' with
        | .error why => .error why
        | .ok ⟨left, h'⟩ => .ok ⟨left, by simp; omega⟩
  | tokens => .ok ⟨tokens, by simp⟩
termination_by (tokens.length, 0)

end

/-- Checks that a list of tokens is one expression. -/
def parse (tokens : List Token) : Except Malformed Unit :=
  match expression tokens with
  | .error why => .error why
  | .ok ⟨[], _⟩ => .ok ()
  | .ok ⟨t :: _, _⟩ => .error (.unexpectedToken t.value)

end Shorthand.Abbreviation
