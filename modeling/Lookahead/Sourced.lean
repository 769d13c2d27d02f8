import Lookahead.Analysis
import Lookahead.Draft

/-!
# Shared storage

The registry and the productions of a grammar lie in storage that is made when the
grammar is put together. Copies of the grammar share it, and so does whatever is
built from the grammar or from its analysis. The storage goes by a number, its
origin: putting a grammar together takes a number that is not in use, for the one
assembly that it ends in, and every other operation hands on the number that it is
given. Two grammars share their storage when their origins agree, whatever they hold.
-/
namespace Lookahead

/-- A value with the origin of the storage behind it. -/
structure Sourced (α : Type) where
  origin : Nat
  value : α
  deriving Repr

namespace Sourced

/-- The outcome of a computation, over the storage of this origin. -/
def under {α : Type} (origin : Nat) (m : Logged (Except Fault α)) :
    Logged (Except Fault (Sourced α)) :=
  (·.map (Sourced.mk origin)) <$> m

/-- Put a grammar together from rules, in storage of its own. -/
def ofRules (fresh : Nat) (nonterminals terminals rules : List String) (start : String) :
    Logged (Except Fault (Sourced Grammar)) :=
  under fresh (Grammar.ofRules nonterminals terminals rules start)

/-- Put a grammar together from drafts, in storage of its own. -/
def ofDrafts (fresh : Nat) (r : Registry) (drafts : List Draft) (start : Reference) :
    Logged (Except Fault (Sourced Grammar)) :=
  under fresh (Grammar.ofDrafts r drafts start)

/-- Another grammar over the same storage. Only the start is copied. -/
def copy (g : Sourced Grammar) : Sourced Grammar where
  origin := g.origin
  value := ⟨g.value.registry, g.value.productions, g.value.start⟩

/-- Analyse a grammar. The analysis keeps a copy of it. -/
def analyze (g : Sourced Grammar) : Logged (Except Fault (Sourced Analysis)) :=
  under g.origin g.value.analyze

def build (g : Sourced Grammar) (target : Target) : Logged (Except Fault (Sourced Artifact)) :=
  under g.origin (g.value.build target)

/-- The grammar that an analysis keeps. -/
def grammar (a : Sourced Analysis) : Sourced Grammar := ⟨a.origin, a.value.grammar⟩

/-- Build from an analysis. Nothing is computed again. -/
def rebuild (a : Sourced Analysis) (target : Target) : Sourced Artifact :=
  ⟨a.origin, a.value.build target⟩

def sharesStorage (g h : Sourced Grammar) : Bool := g.origin == h.origin

end Sourced

end Lookahead
