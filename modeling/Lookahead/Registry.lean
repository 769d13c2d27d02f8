import Lookahead.Ascending
import Lookahead.Event
import Lookahead.Fault
import Lookahead.Symbol.Bits
import Std.Data.TreeMap

/-!
# Registries

A registry issues identities to names. Terminals and nonterminals have
separate name spaces, so one name may stand for two symbols; identities are
shared between the kinds and issued in the order one, two, three and so on.
Nothing is ever taken back. The next identity is a counter, the names lie in a
table by identity, each kind has an index from names to symbols, and a bit per
identity tells the terminals.

The counter is an integer without bound. A counter of thirty-two bits that
stops at its largest value, 2^31 - 1, runs as this one does for the first
2^31 - 3 identities, and what follows from here holds of it that far.
-/
namespace Lookahead

structure Registry where
  /-- The identity that a new name would get. -/
  nextId : Int
  /-- The name of identity `i` stands at position `i - 1`. -/
  names : Array String
  nonterminalIndex : Std.TreeMap String Symbol
  terminalIndex : Std.TreeMap String Symbol
  terminalBits : SymbolBits (Array Bool)

/-- The name under which every registry knows the empty string. -/
def epsilonName : String := "epsilon"

/-- The name shown for the end marker. It is never looked up. -/
def endMarkerName : String := "dollar"

namespace Registry

def empty : Registry := ⟨Symbol.firstId, #[], ∅, ∅, .empty⟩

instance : Inhabited Registry := ⟨empty⟩

/-- The number of identities issued. -/
def size (r : Registry) : Nat := r.names.size

def index (r : Registry) : Kind → Std.TreeMap String Symbol
  | .terminal => r.terminalIndex
  | .nonterminal => r.nonterminalIndex

/-- The symbol that a new name of this kind would get. -/
def nextSymbol (r : Registry) (kind : Kind) : Symbol := ⟨r.nextId, kind⟩

/-- Give the next identity to a name, which must be new among its kind. -/
def add (r : Registry) (name : String) (kind : Kind) : Registry :=
  let s := r.nextSymbol kind
  match kind with
  | .terminal =>
      { r with
        nextId := r.nextId + 1
        names := r.names.push name
        terminalIndex := r.terminalIndex.insert name s
        terminalBits := r.terminalBits.set s true }
  | .nonterminal =>
      { r with
        nextId := r.nextId + 1
        names := r.names.push name
        nonterminalIndex := r.nonterminalIndex.insert name s }

/-- The symbol of a name among one kind. A new name gets the next identity. -/
def issue (r : Registry) (name : String) (kind : Kind) : Logged (Symbol × Registry) :=
  match (r.index kind)[name]? with
  | some s => pure (s, r)
  | none => do
      let s := r.nextSymbol kind
      .emit (.issued name s)
      pure (s, r.add name kind)

/-- Issue a list of names one after the other. -/
def issueAll (r : Registry) : List (String × Kind) → Logged Registry
  | [] => pure r
  | (name, kind) :: rest => do
      let (_, r) ← r.issue name kind
      r.issueAll rest

/-- The registry that issues these names in this order. -/
def ofList (names : List (String × Kind)) : Logged Registry := empty.issueAll names

/-- The registry of two sets of names: first the nonterminals, then the
terminals, each in the order of code points. -/
def ofNames (nonterminals terminals : List String) : Logged Registry :=
  ofList <|
    (Ascending.distinct nonterminals).map (·, Kind.nonterminal) ++
      (Ascending.distinct terminals).map (·, Kind.terminal)

/-- The symbol that a name stands for. The name of the empty string comes
first, and a nonterminal hides a terminal of the same name. -/
def resolve (r : Registry) (name : String) : Except UnresolvedName Symbol :=
  if name = epsilonName then .ok .epsilon
  else
    match r.nonterminalIndex[name]? <|> r.terminalIndex[name]? with
    | some s => .ok s
    | none => .error ⟨name⟩

/-- The registry knows a symbol that it issued with this kind, and every
reserved one, whatever its kind. -/
def contains (r : Registry) (s : Symbol) : Bool :=
  s.isReserved || (s.id < r.nextId && r.terminalBits.has s == s.isTerminal)

/-- The symbol is known, not reserved, and a terminal. -/
def isTerminal (r : Registry) (s : Symbol) : Bool :=
  !s.isReserved && s.isTerminal && r.contains s

/-- The symbol is known and a nonterminal. -/
def isNonterminal (r : Registry) (s : Symbol) : Bool := s.isNonterminal && r.contains s

/-- The name of a symbol that the registry knows. Of the reserved ones, the
empty string and the end marker have a name. -/
def name? (r : Registry) (s : Symbol) : Option String :=
  if s.same .epsilon then some epsilonName
  else if s.same .endMarker then some endMarkerName
  else if r.contains s then (s.id - Symbol.firstId).toNat?.bind (r.names[·]?)
  else none

/-- The nonterminals issued, in that order. -/
def nonterminals (r : Registry) : List Symbol :=
  let count := (r.nextId - Symbol.firstId).toNat
  ((List.range count).map fun i : Nat => Symbol.mk (Symbol.firstId + i) .nonterminal).filter
    fun s => !r.terminalBits.has s

/-- The terminals issued, in that order. -/
def terminals (r : Registry) : List Symbol := r.terminalBits.symbols .terminal

end Registry

end Lookahead
