import Lookahead.First.Solution

/-!
# Analyses

An analysis keeps a context-free grammar together with its sets of first
symbols. A grammar, or an analysis, can be built into either form; building an
analysis again computes nothing.
-/
namespace Lookahead

structure Analysis where
  grammar : Grammar
  first : FirstSolution

/-- What to build from a grammar. -/
inductive Target where
  | plain
  | ll1
  deriving Repr, DecidableEq

inductive Artifact where
  | grammar (g : Grammar)
  | analysis (a : Analysis)

namespace Grammar

/-- Analyse a grammar, which must be context-free. -/
def analyze (g : Grammar) : Logged (Except Fault Analysis) :=
  if g.isContextFree then do
    let first ← g.solveFirst
    pure (.ok ⟨g, first⟩)
  else pure (.error .notContextFree)

def build (g : Grammar) : Target → Logged (Except Fault Artifact)
  | .plain => pure (.ok (.grammar g))
  | .ll1 => do
      let result ← g.analyze
      pure (result.map .analysis)

end Grammar

namespace Analysis

def build (a : Analysis) : Target → Artifact
  | .plain => .grammar a.grammar
  | .ll1 => .analysis a

/-- The set of a single symbol. -/
def firstSet? (a : Analysis) (s : Symbol) : Option SymbolSet := a.first.table.find? s

/-- The set of a string of symbols. -/
def firstOf (a : Analysis) (string : List Symbol) : SymbolSet := a.first.table.firstOf string

def isNullable (a : Analysis) (s : Symbol) : Bool := a.first.table.isNullable s

/-- The nonterminals that can vanish. -/
def nullable (a : Analysis) : List Symbol :=
  a.grammar.registry.nonterminals.filter a.isNullable

end Analysis

end Lookahead
