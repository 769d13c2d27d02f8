import Lookahead.Sourced

/-!
# Sessions

A session keeps registries, grammars and analyses in named slots. Grammars and
analyses are kept with the origins of their storage. The session counts the grammars
put together, and its count is the next origin: each of them gets one of its own.
-/
namespace Lookahead

/-- What the name of a slot holds. -/
abbrev Slots (α : Type) := Std.TreeMap String α

structure Session where
  registries : Slots Registry
  grammars : Slots (Sourced Grammar)
  analyses : Slots (Sourced Analysis)
  /-- The number of grammars put together so far. -/
  assemblies : Nat

/-- Why a session refuses a command. -/
inductive Refusal where
  | emptySlot (slot : String)
  | fault (cause : Fault)
  deriving Repr, DecidableEq

def Refusal.message : Refusal → String
  | emptySlot slot => slot
  | fault cause => cause.message

/-- What a registry knows about one symbol. -/
structure SymbolReport where
  name : Option String
  contains : Bool
  isTerminal : Bool
  isNonterminal : Bool
  deriving Repr, DecidableEq

def Registry.report (r : Registry) (s : Symbol) : SymbolReport where
  name := r.name? s
  contains := r.contains s
  isTerminal := r.isTerminal s
  isNonterminal := r.isNonterminal s

/-- What a session can be asked to do. Slots are named by strings, and `into` is
the slot that takes the result. -/
inductive Command where
  | newRegistry (into : String)
  /-- A registry of these names. -/
  | nameRegistry (into : String) (nonterminals terminals : List String)
  | copyRegistry (source into : String)
  /-- A copy of the registry of a grammar. -/
  | takeRegistry (grammar into : String)
  | issue (registry name : String) (kind : Kind)
  | showRegistry (registry : String)
  | resolve (registry name : String)
  | report (registry : String) (symbol : Reference)
  /-- The production that a rule writes down. -/
  | readRule (registry rule : String)
  | grammarOfRules (into : String) (nonterminals terminals rules : List String) (start : String)
  /-- A grammar over a copy of a registry. -/
  | grammarOfDrafts (registry into : String) (drafts : List Draft) (start : Reference)
  | copyGrammar (source into : String)
  | showGrammar (grammar : String)
  | shareOrigin (left right : String)
  | productionsOf (grammar : String) (symbol : Reference)
  /-- The production that a rule writes down over the registry of a grammar. -/
  | readRuleFor (grammar rule : String)
  | build (grammar : String) (target : Target) (into : String)
  | analyze (grammar into : String)
  | showAnalysis (analysis : String)
  /-- Build from an analysis. -/
  | rebuild (analysis : String) (target : Target) (into : String)
  /-- The grammar of an analysis. -/
  | takeGrammar (analysis into : String)
  | compareFirst (left right : String)
  /-- The set of one symbol. -/
  | firstSet (analysis : String) (symbol : Reference)
  /-- The set of a string. -/
  | firstOf (analysis : String) (string : List Reference)
  deriving Repr, DecidableEq

/-- What a session answers. -/
inductive Reply where
  | done
  | registry (r : Registry)
  | symbol (s : Symbol)
  | report (d : SymbolReport)
  | production (p : Production)
  | productions (ps : List Production)
  | grammar (g : Grammar)
  | analysis (a : Analysis)
  | built (b : Artifact)
  | truth (b : Bool)
  /-- Whether two tables agree, and whether the numbers of rounds do so as well. -/
  | agreement (tables solutions : Bool)
  | firstSet (set : Option SymbolSet) (nullable : Bool)
  | symbols (set : SymbolSet)

namespace Session

def empty : Session := ⟨∅, ∅, ∅, 0⟩

def registry (s : Session) (slot : String) : Except Refusal Registry :=
  match s.registries[slot]? with
  | some r => .ok r
  | none => .error (.emptySlot slot)

def grammar (s : Session) (slot : String) : Except Refusal (Sourced Grammar) :=
  match s.grammars[slot]? with
  | some g => .ok g
  | none => .error (.emptySlot slot)

def analysis (s : Session) (slot : String) : Except Refusal (Sourced Analysis) :=
  match s.analyses[slot]? with
  | some a => .ok a
  | none => .error (.emptySlot slot)

def putRegistry (s : Session) (slot : String) (r : Registry) : Session :=
  { s with registries := s.registries.insert slot r }

def putGrammar (s : Session) (slot : String) (g : Sourced Grammar) : Session :=
  { s with grammars := s.grammars.insert slot g }

def putAnalysis (s : Session) (slot : String) (a : Sourced Analysis) : Session :=
  { s with analyses := s.analyses.insert slot a }

/-- Keep a grammar just put together, and count it. -/
def putAssembled (s : Session) (slot : String) (g : Sourced Grammar) : Session :=
  { s.putGrammar slot g with assemblies := s.assemblies + 1 }

def putBuilt (s : Session) (slot : String) (b : Sourced Artifact) : Session :=
  match b.value with
  | .grammar g => s.putGrammar slot ⟨b.origin, g⟩
  | .analysis a => s.putAnalysis slot ⟨b.origin, a⟩

end Session

end Lookahead
