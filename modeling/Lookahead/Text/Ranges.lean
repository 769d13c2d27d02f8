/-!
# Ranges of code points

A property of characters is given as a list of code point ranges.
-/
namespace Lookahead.Text

/-- Pairs of a first and a last code point, both of them included. -/
abbrev Ranges := List (Nat × Nat)

/-- Some range contains the code point of `c`. -/
def Ranges.holds (r : Ranges) (c : Char) : Bool :=
  r.any fun (first, last) => first ≤ c.toNat && c.toNat ≤ last

end Lookahead.Text
