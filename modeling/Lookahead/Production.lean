import Lookahead.Symbol.Basic

/-!
# Productions

A production lets the string on its right stand for the string on its left.
Productions are compared by the identities on both sides.
-/
namespace Lookahead

structure Production where
  lhs : List Symbol
  rhs : List Symbol
  deriving Repr, DecidableEq

namespace Production

/-- The production that lets `s` vanish. -/
def vanishing (s : Symbol) : Production := ⟨[s], [.epsilon]⟩

/-- The identities of both sides. -/
def ids (p : Production) : List Int × List Int := (p.lhs.map (·.id), p.rhs.map (·.id))

def same (p q : Production) : Bool := p.ids == q.ids

instance : Hashable Production where
  hash p := hash p.ids

/-- The right side is the empty string, written out. -/
def isEpsilon (p : Production) : Bool :=
  match p.rhs with
  | [s] => s.isEpsilon
  | _ => false

/-- The left side when it is a single symbol. -/
def soleLhs? (p : Production) : Option Symbol :=
  match p.lhs with
  | [s] => some s
  | _ => none

/-- The left side is `s` and nothing else. -/
def expands (p : Production) (s : Symbol) : Bool := p.soleLhs?.any (·.same s)

/-- The number of different productions in a list. -/
def countDistinct (productions : List Production) : Nat :=
  (productions.map ids).eraseDups.length

@[simp] theorem soleLhs?_eq_some {p : Production} {s : Symbol} :
    p.soleLhs? = some s ↔ p.lhs = [s] := by
  unfold soleLhs?
  split <;> simp_all

end Production

end Lookahead
