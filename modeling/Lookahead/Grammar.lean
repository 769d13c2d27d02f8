import Lookahead.Rule

/-!
# Grammars

A grammar is a registry, a list of productions over it and a start symbol.
It is put together from ready productions or from the texts of rules, and
either way every part is checked: `fault?` finds the first thing wrong.
-/
namespace Lookahead

structure Grammar where
  registry : Registry
  productions : List Production
  start : Symbol

namespace Grammar

/-- The first thing wrong with the production at `index`. -/
def productionFault? (r : Registry) (p : Production) (index : Nat) : Option AssemblyFault :=
  if p.lhs.isEmpty then some (.noLeftSide index)
  else if p.rhs.isEmpty then some (.noRightSide index)
  else
    ((p.lhs ++ p.rhs).find? fun s => !r.contains s).map fun s => .strangeSymbol index s.id

def startFault? (r : Registry) (start : Symbol) : Option AssemblyFault :=
  if !r.contains start then some (.strangeStart start.id)
  else if !r.isNonterminal start then some (.terminalStart start.id)
  else none

/-- The first thing wrong with the parts: productions in their order, then the start. -/
def fault? (r : Registry) (productions : List Production) (start : Symbol) :
    Option AssemblyFault :=
  (productions.zipIdx.findSome? fun (p, index) => productionFault? r p index).or
    (startFault? r start)

/-- Put a grammar together, unless there is something wrong with it. -/
def assemble (r : Registry) (productions : List Production) (start : Symbol) :
    Logged (Except Fault Grammar) :=
  match fault? r productions start with
  | some f => pure (.error (.assembly f))
  | none => do
      .emit (.assembled r.size productions.length)
      pure (.ok ⟨r, productions, start⟩)

/-- The productions of a set of rules in the order of code points, and the start symbol. -/
def readRules (r : Registry) (rules : List String) (start : String) :
    Except Fault (List Production × Symbol) := do
  let productions ← (Ascending.distinct rules).mapM fun rule =>
    (Rule.read r rule).mapError Fault.rule
  let s ← (r.resolve start).mapError Fault.name
  return (productions, s)

/-- The grammar with these names, these rules and this start. Each list counts as a set. -/
def ofRules (nonterminals terminals rules : List String) (start : String) :
    Logged (Except Fault Grammar) := do
  let r ← Registry.ofNames nonterminals terminals
  match readRules r rules start with
  | .error f => pure (.error f)
  | .ok (productions, s) => assemble r productions s

/-- Every production expands a single nonterminal. -/
def isContextFree (g : Grammar) : Bool :=
  g.productions.all fun p => p.soleLhs?.any g.registry.isNonterminal

/-- The productions that expand `s`, in their order. -/
def productionsOf (g : Grammar) (s : Symbol) : List Production :=
  g.productions.filter (·.expands s)

/-- Some right side mentions the end marker. -/
def mentionsEndMarker (g : Grammar) : Bool :=
  g.productions.any fun p => p.rhs.any (·.same .endMarker)

end Grammar

end Lookahead
