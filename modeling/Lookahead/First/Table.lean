import Lookahead.Production
import Lookahead.Symbol.Set

/-!
# Tables of first symbols

A table assigns a set of symbols to some symbols. `firstOf` reads the set of a
whole string off it: the symbols that can come first, and the empty string
when every part can vanish. A symbol that the table does not list can start
nothing and cannot vanish.
-/
namespace Lookahead

structure FirstTable where
  entries : List (Symbol × SymbolSet)
  ascending : entries.Pairwise (·.1.id < ·.1.id) := by simp
  deriving Repr, DecidableEq

namespace FirstTable

def empty : FirstTable := ⟨[], by simp⟩

instance : Inhabited FirstTable := ⟨empty⟩

def size (t : FirstTable) : Nat := t.entries.length

/-- The symbols that have a set, by rising identity. -/
def keys (t : FirstTable) : List Symbol := t.entries.map (·.1)

/-- The set of `s`, looked up by identity. -/
def find? (t : FirstTable) (s : Symbol) : Option SymbolSet :=
  (t.entries.find? (·.1.id = s.id)).map (·.2)

/-- Add symbols to the set of `s`. A symbol without a set gets one first. -/
def extend (t : FirstTable) (s : Symbol) (X : SymbolSet) : FirstTable where
  entries := Ascending.place (·.1.id) (s, X) (fun e => (e.1, e.2 ∪ X)) t.entries
  ascending :=
    Ascending.pairwise_place (·.1.id) (s, X) (fun e => (e.1, e.2 ∪ X)) (fun _ => rfl) t.ascending

/-- The table that results from extending the empty one. -/
def ofList (sets : List (Symbol × SymbolSet)) : FirstTable :=
  sets.foldl (fun t (s, X) => t.extend s X) empty

/-- The identities of the keys, each with the identities in its set. -/
def ids (t : FirstTable) : List (Int × List Int) := t.entries.map fun e => (e.1.id, e.2.ids)

/-- Both tables have the same keys with the same sets, by identity. -/
def same (t u : FirstTable) : Bool := t.ids == u.ids

/-- The symbols that a string can start with, as far as the table knows. -/
def firstOf (t : FirstTable) : List Symbol → SymbolSet
  | [] => .singleton .epsilon
  | s :: rest =>
      match t.find? s with
      | none => ∅
      | some X => if .epsilon ∈ X then X.withoutEpsilon ∪ t.firstOf rest else X

/-- The set of `s` holds the empty string. -/
def isNullable (t : FirstTable) (s : Symbol) : Bool :=
  (t.find? s).any fun X => .epsilon ∈ X

@[simp] theorem same_iff {t u : FirstTable} : t.same u = true ↔ t.ids = u.ids := by
  simp [same]

@[simp] theorem find?_empty (s : Symbol) : empty.find? s = none := rfl

theorem find?_extend (t : FirstTable) (s k : Symbol) (X : SymbolSet) :
    (t.extend s X).find? k =
      if s.id = k.id then some ((t.find? k).elim X (· ∪ X)) else t.find? k := by
  simp only [find?, extend]
  rw [Ascending.find?_place (fun e : Symbol × SymbolSet => e.1.id) (s, X)
    (fun e => (e.1, e.2 ∪ X)) (fun _ => rfl) t.ascending]
  by_cases h : s.id = k.id
  · simp only [h, if_true]
    cases t.entries.find? (fun e => e.1.id = k.id) <;> rfl
  · simp [h]

end FirstTable

end Lookahead
