/-!
# Symbols

A grammar symbol is an identity together with a kind. The identity alone
decides which symbol it is: comparison, order and hashing look at nothing
else, and the kind travels along as a label. Identities from one upwards are
issued by a registry; zero is the empty string, minus one the end marker, and
everything below one is reserved.

Identities are integers without bound. As long as a registry has issued at most
2^31 - 3 of them, all issued identities are signed numbers of thirty-two bits, and
what is said here of integers holds of these numbers.
-/
namespace Lookahead

/-- Terminals come before nonterminals. -/
inductive Kind where
  | terminal
  | nonterminal
  deriving Repr, DecidableEq, Ord

/-- The word written for a kind. -/
def Kind.word : Kind → String
  | terminal => "Terminal"
  | nonterminal => "Nonterminal"

structure Symbol where
  id : Int
  kind : Kind
  deriving Repr, DecidableEq

namespace Symbol

/-- The least identity that a registry issues. -/
def firstId : Int := 1

/-- The empty string. -/
def epsilon : Symbol := ⟨0, .terminal⟩

/-- The end of the input. -/
def endMarker : Symbol := ⟨-1, .terminal⟩

@[simp] theorem epsilon_id : epsilon.id = 0 := rfl

@[simp] theorem endMarker_id : endMarker.id = -1 := rfl

/-- Two values stand for the same symbol when their identities agree. -/
def same (s t : Symbol) : Bool := s.id == t.id

@[simp] theorem same_iff {s t : Symbol} : s.same t = true ↔ s.id = t.id := by simp [same]

theorem eq_of_id_of_kind {s t : Symbol} (hid : s.id = t.id) (hk : s.kind = t.kind) : s = t := by
  cases s
  cases t
  exact (Symbol.mk.injEq ..).mpr ⟨hid, hk⟩

instance : Ord Symbol where
  compare s t := compare s.id t.id

instance : Hashable Symbol where
  hash s := hash s.id

def isTerminal (s : Symbol) : Bool := s.kind == .terminal

def isNonterminal (s : Symbol) : Bool := s.kind == .nonterminal

def isEpsilon (s : Symbol) : Bool := s.same epsilon

/-- No registry issues a reserved identity. -/
def isReserved (s : Symbol) : Bool := s.id < firstId

@[simp] theorem isTerminal_iff {s : Symbol} : s.isTerminal = true ↔ s.kind = .terminal := by
  simp [isTerminal]

@[simp] theorem isNonterminal_iff {s : Symbol} :
    s.isNonterminal = true ↔ s.kind = .nonterminal := by
  simp [isNonterminal]

@[simp] theorem isEpsilon_iff {s : Symbol} : s.isEpsilon = true ↔ s.id = 0 := by
  simp [isEpsilon]

@[simp] theorem isReserved_iff {s : Symbol} : s.isReserved = true ↔ s.id ≤ 0 := by
  rw [isReserved, decide_eq_true_iff, firstId]
  omega

/-- The identity as a position; the negative ones have none. -/
def index? (s : Symbol) : Option Nat := s.id.toNat?

/-- Symbols by rising identity; those of one identity stay in the order given. -/
def sort (symbols : List Symbol) : List Symbol := symbols.mergeSort (·.id ≤ ·.id)

/-- The identity and kind as the log shows them. -/
def text (s : Symbol) : String :=
  "Symbol \x7b id: " ++ toString s.id ++ ", kind: " ++ s.kind.word ++ " \x7d"

end Symbol

end Lookahead
