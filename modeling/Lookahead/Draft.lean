import Lookahead.Grammar

/-!
# Drafts

A draft is a production that may name its symbols instead of giving them. A
registry completes it. Names are resolved from left to right, and the first
unknown one is the fault.
-/
namespace Lookahead

inductive Reference where
  /-- This very symbol, whether or not any registry issued it. -/
  | symbol (s : Symbol)
  /-- The symbol that the name stands for. -/
  | name (text : String)
  deriving Repr, DecidableEq

structure Draft where
  lhs : List Reference
  rhs : List Reference
  deriving Repr, DecidableEq

/-- The draft that lets a symbol vanish. -/
def Draft.vanishing (s : Reference) : Draft := ⟨[s], [.symbol .epsilon]⟩

namespace Registry

def dereference (r : Registry) : Reference → Except Fault Symbol
  | .symbol s => .ok s
  | .name text => (r.resolve text).mapError Fault.name

def complete (r : Registry) (d : Draft) : Except Fault Production := do
  let lhs ← d.lhs.mapM r.dereference
  let rhs ← d.rhs.mapM r.dereference
  return ⟨lhs, rhs⟩

end Registry

/-- Put a grammar together from drafts. The start is resolved after all of them. -/
def Grammar.ofDrafts (r : Registry) (drafts : List Draft) (start : Reference) :
    Logged (Except Fault Grammar) :=
  let parts : Except Fault (List Production × Symbol) := do
    let productions ← drafts.mapM r.complete
    let s ← r.dereference start
    return (productions, s)
  match parts with
  | .error f => pure (.error f)
  | .ok (productions, s) => assemble r productions s

end Lookahead
