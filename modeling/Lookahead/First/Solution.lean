import Lookahead.First.Table
import Lookahead.Grammar

/-!
# Solving for first symbols

The sets of the terminals, of the empty string and of the end marker are known
beforehand. The sets of the nonterminals start out empty and grow in rounds:
a round reads the previous table and adds to every nonterminal what the right
sides of its productions can start with. The first round that changes nothing
ends the computation, and the number of rounds includes it.
-/
namespace Lookahead

structure FirstSolution where
  table : FirstTable
  rounds : Nat
  deriving Repr, DecidableEq

namespace FirstSolution

/-- Both solutions have the same sets and took the same number of rounds. -/
def same (a b : FirstSolution) : Bool := a.table.same b.table && a.rounds == b.rounds

end FirstSolution

namespace Grammar

/-- The table before the first round. The end marker has a set only when some
right side mentions it. -/
def initialTable (g : Grammar) : FirstTable :=
  .ofList <|
    (Symbol.epsilon, .singleton .epsilon) ::
      (if g.mentionsEndMarker then [(Symbol.endMarker, .singleton .endMarker)] else []) ++
      g.registry.terminals.map (fun a => (a, .singleton a)) ++
      g.registry.nonterminals.map (·, ∅)

/-- What the right sides of `n` can start with. -/
def firstOfRightSides (g : Grammar) (t : FirstTable) (n : Symbol) : SymbolSet :=
  (g.productionsOf n).foldl (fun X p => X ∪ t.firstOf p.rhs) ∅

/-- One round: every nonterminal is extended by what `t` knows of its right sides. -/
def nextTable (g : Grammar) (t : FirstTable) : FirstTable :=
  g.registry.nonterminals.foldl (fun u n => u.extend n (g.firstOfRightSides t n)) t

/-- A bound on the number of rounds: every round but the last adds a symbol to
the set of some nonterminal, and it can only be a terminal, the empty string or
the end marker. -/
def roundBound (g : Grammar) : Nat :=
  g.registry.nonterminals.length * (g.registry.terminals.length + 2) + 1

/-- Play up to `fuel` rounds from a table that took `rounds` rounds so far. -/
def settle (g : Grammar) : (fuel rounds : Nat) → FirstTable → Logged FirstSolution
  | 0, rounds, t => pure ⟨t, rounds⟩
  | fuel + 1, rounds, t => do
      let u := g.nextTable t
      let changed := !u.same t
      .emit (.round (rounds + 1) changed)
      if changed then g.settle fuel (rounds + 1) u else pure ⟨u, rounds + 1⟩

/-- The sets of first symbols of a grammar. Productions without a single symbol
on the left are not looked at. -/
def solveFirst (g : Grammar) : Logged FirstSolution := do
  let solution ← g.settle g.roundBound 0 g.initialTable
  .emit (.settled solution.table.size solution.rounds)
  pure solution

end Grammar

end Lookahead
