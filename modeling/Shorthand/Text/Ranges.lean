/-
Sets of characters given as intervals of code points.
-/

namespace Shorthand.Text

/-- A set of characters: closed intervals of code points, in increasing order
and disjoint. -/
abbrev Ranges := List (Nat × Nat)

/-- Membership. The search ends at the first interval that begins after the
character, since the intervals are in increasing order. -/
def Ranges.contains : Ranges → Char → Bool
  | [], _ => false
  | (lo, hi) :: rest, c =>
    if c.toNat < lo then false else c.toNat ≤ hi || contains rest c

/-- How far into its interval a character lies, when it is in the set. -/
def Ranges.offset? : Ranges → Char → Option Nat
  | [], _ => none
  | (lo, hi) :: rest, c =>
    if c.toNat < lo then none
    else if c.toNat ≤ hi then some (c.toNat - lo) else offset? rest c

end Shorthand.Text
