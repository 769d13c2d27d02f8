import Lookahead.Ascending
import Lookahead.Symbol.Basic

/-!
# Finite sets of symbols

A set is a list of symbols with strictly rising identities. Membership is by
identity. Adding a symbol whose identity is present leaves the present one in
place, so a set also remembers the kind under which each identity came in
first.
-/
namespace Lookahead

structure SymbolSet where
  toList : List Symbol
  ascending : toList.Pairwise (·.id < ·.id) := by simp
  deriving Repr, DecidableEq

namespace SymbolSet

/-- The identities in the set, rising. -/
def ids (X : SymbolSet) : List Int := X.toList.map (·.id)

/-- The set holds a symbol with the identity of `s`. -/
instance : Membership Symbol SymbolSet where
  mem X s := ∃ t ∈ X.toList, t.id = s.id

theorem mem_iff_exists {s : Symbol} {X : SymbolSet} : s ∈ X ↔ ∃ t ∈ X.toList, t.id = s.id :=
  Iff.rfl

theorem mem_iff_ids {s : Symbol} {X : SymbolSet} : s ∈ X ↔ s.id ∈ X.ids := by
  simp [mem_iff_exists, ids]

instance (s : Symbol) (X : SymbolSet) : Decidable (s ∈ X) :=
  inferInstanceAs (Decidable (∃ t ∈ X.toList, t.id = s.id))

instance : HasSubset SymbolSet where
  Subset X Y := ∀ s ∈ X, s ∈ Y

instance : EmptyCollection SymbolSet where
  emptyCollection := ⟨[], by simp⟩

instance : Inhabited SymbolSet := ⟨∅⟩

def singleton (s : Symbol) : SymbolSet := ⟨[s], by simp⟩

def size (X : SymbolSet) : Nat := X.toList.length

/-- Add `s` unless its identity is present already. -/
def insert (X : SymbolSet) (s : Symbol) : SymbolSet where
  toList := Ascending.place Symbol.id s (fun t => t) X.toList
  ascending := Ascending.pairwise_place Symbol.id s (fun t => t) (fun _ => rfl) X.ascending

/-- Of several symbols with one identity the last in the list stays. -/
def ofList (symbols : List Symbol) : SymbolSet := symbols.foldr (fun s X => X.insert s) ∅

/-- Both sets together; where both hold an identity, the left one's symbol stays. -/
instance : Union SymbolSet where
  union X Y :=
    ⟨Ascending.merge Symbol.id X.toList Y.toList,
      Ascending.pairwise_merge Symbol.id X.ascending Y.ascending⟩

def withoutEpsilon (X : SymbolSet) : SymbolSet where
  toList := X.toList.filter (fun s => !s.isEpsilon)
  ascending := X.ascending.filter _

/-- The two sets hold the same identities. -/
def same (X Y : SymbolSet) : Bool := X.ids == Y.ids

@[simp] theorem ids_empty : (∅ : SymbolSet).ids = [] := rfl

@[simp] theorem ids_singleton (s : Symbol) : (singleton s).ids = [s.id] := rfl

@[simp] theorem toList_empty : (∅ : SymbolSet).toList = [] := rfl

@[simp] theorem toList_singleton (s : Symbol) : (singleton s).toList = [s] := rfl

@[simp] theorem notMem_empty (s : Symbol) : s ∉ (∅ : SymbolSet) := by simp [mem_iff_ids]

@[simp] theorem mem_singleton {s t : Symbol} : s ∈ singleton t ↔ s.id = t.id := by
  simp [mem_iff_ids]

@[simp] theorem mem_insert {s t : Symbol} {X : SymbolSet} :
    s ∈ X.insert t ↔ s.id = t.id ∨ s ∈ X := by
  rw [mem_iff_ids, mem_iff_ids]
  exact Ascending.mem_keys_place Symbol.id t (fun u => u) (fun _ => rfl)

@[simp] theorem mem_union {s : Symbol} {X Y : SymbolSet} : s ∈ X ∪ Y ↔ s ∈ X ∨ s ∈ Y := by
  simp only [mem_iff_ids]
  exact Ascending.mem_keys_merge Symbol.id

@[simp] theorem mem_withoutEpsilon {s : Symbol} {X : SymbolSet} :
    s ∈ X.withoutEpsilon ↔ s ∈ X ∧ s.id ≠ 0 := by
  simp only [mem_iff_exists, withoutEpsilon, List.mem_filter, Bool.not_eq_true',
    Bool.eq_false_iff, ne_eq, Symbol.isEpsilon_iff]
  grind

@[simp] theorem same_iff {X Y : SymbolSet} : X.same Y = true ↔ X.ids = Y.ids := by
  simp [same]

end SymbolSet

end Lookahead
