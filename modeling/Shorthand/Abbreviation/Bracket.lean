/-
The two kinds of blocks in a node, `[attributes]` and `{text}`, and where a block
that is open closes. A backslash takes the next character with it, brackets of one
kind nest, and quoted strings are skipped inside attributes.
-/
import Shorthand.Text.Basic

namespace Shorthand.Abbreviation

inductive Bracket where
  | square
  | curly
  deriving DecidableEq, Repr

namespace Bracket

def opening : Bracket → Char
  | .square => '['
  | .curly => '{'

def closing : Bracket → Char
  | .square => ']'
  | .curly => '}'

/-- Whether a character begins a quoted string in a block of this kind. -/
def opensQuote : Bracket → Char → Bool
  | .square, c => c == '"' || c == '\''
  | .curly, _ => false

/-- How far it is to the bracket that closes the block, `depth` brackets being open
and `quote` being the quote of an open string. -/
def closingFrom (b : Bracket) : (depth : Nat) → (quote : Option Char) → Text → Option Nat
  | _, _, [] => none
  | _, _, ['\\'] => none
  | depth, quote, '\\' :: _ :: rest => (closingFrom b depth quote rest).map (· + 2)
  | depth, some q, c :: rest =>
    (closingFrom b depth (if c = q then none else some q) rest).map (· + 1)
  | depth, none, c :: rest =>
    if b.opensQuote c then (closingFrom b depth (some c) rest).map (· + 1)
    else if c = b.opening then (closingFrom b (depth + 1) none rest).map (· + 1)
    else if c = b.closing then
      if depth = 1 then some 0 else (closingFrom b (depth - 1) none rest).map (· + 1)
    else (closingFrom b depth none rest).map (· + 1)

/-- The index of the bracket that closes the one a text begins with. -/
def closing? (b : Bracket) (t : Text) : Option Nat := b.closingFrom 0 none t

end Bracket

end Shorthand.Abbreviation
