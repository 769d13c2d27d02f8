import Lookahead.BitVector
import Lookahead.Symbol.Basic

/-!
# Sets of identities as bits

One bit per identity from zero upwards, in any bit vector. Writing past the end first
fills the gap with absent bits, reading past the end finds nothing, and a negative
identity is never a member. `has_set` says what a write does to every membership, and
`mem_ids` what the enumeration contains. A cursor goes through the members one at a time.

All that is assumed of the vector are the laws in `LawfulBitVector`; registries keep their
bits in an array.
-/
namespace Lookahead

open BitVector

structure SymbolBits (V : Type) where
  bits : V
  deriving Repr, DecidableEq

namespace SymbolBits

variable {V : Type} [BitVector V]

def empty : SymbolBits V := ⟨BitVector.empty⟩

def has (b : SymbolBits V) (s : Symbol) : Bool :=
  match s.index? with
  | none => false
  | some i => (get? b.bits i).getD false

/-- The bits with room for index `i`. -/
def room (b : SymbolBits V) (i : Nat) : V :=
  if length b.bits ≤ i then grow b.bits (i + 1 - length b.bits) false else b.bits

/-- Make `s` a member or a non-member. A negative identity changes nothing. -/
def set (b : SymbolBits V) (s : Symbol) (member : Bool) : SymbolBits V :=
  match s.index? with
  | none => b
  | some i => ⟨BitVector.set (b.room i) i member⟩

/-- The members in rising order. -/
def ids (b : SymbolBits V) : List Int :=
  ((toList b.bits).zipIdx.filter (·.1)).map fun e => (e.2 : Int)

/-- The members as symbols of one kind, in rising order. -/
def symbols (b : SymbolBits V) (kind : Kind) : List Symbol := b.ids.map (⟨·, kind⟩)

/-- An enumeration that may have been begun: the bits it has yet to look at, the identity
of the first of them, and the kind that members are shown with. -/
structure Cursor where
  rest : List Bool
  position : Nat
  kind : Kind
  deriving Repr, DecidableEq

/-- The cursor in front of the first bit. -/
def cursor (b : SymbolBits V) (kind : Kind) : Cursor := ⟨toList b.bits, 0, kind⟩

/-- Pass over absent bits to the next member and stop behind it. -/
def Cursor.advance (kind : Kind) : List Bool → Nat → Option Symbol × Cursor
  | [], i => (none, ⟨[], i, kind⟩)
  | present :: rest, i =>
      if present then (some ⟨i, kind⟩, ⟨rest, i + 1, kind⟩) else advance kind rest (i + 1)

/-- The next member, and the cursor that is left. -/
def Cursor.next (c : Cursor) : Option Symbol × Cursor := advance c.kind c.rest c.position

theorem pairwise_ids (b : SymbolBits V) : b.ids.Pairwise (· < ·) := by
  have hrising : ((toList b.bits).zipIdx.map (·.2)).Pairwise (· < ·) := by
    rw [List.zipIdx_map_snd]
    exact List.pairwise_lt_range'
  refine List.pairwise_map.mpr ((List.pairwise_map.mp hrising).filter _ |>.imp ?_)
  intro e f h
  exact Int.ofNat_lt.mpr h

variable [LawfulBitVector V]

open LawfulBitVector

@[simp] theorem has_empty (s : Symbol) : (empty : SymbolBits V).has s = false := by
  unfold has
  split <;> simp [empty, get?_eq, toList_empty]

/-- There is room now, and reading shows no difference. -/
theorem room_spec (b : SymbolBits V) (i : Nat) :
    i < length (b.room i) ∧
      ∀ j : Nat, (toList (b.room i))[j]?.getD false = (toList b.bits)[j]?.getD false := by
  unfold room
  split
  next h =>
    rw [length_eq] at h
    refine ⟨?_, fun j => ?_⟩
    · rw [length_eq, toList_grow, List.length_append, List.length_replicate, length_eq]
      omega
    · rw [toList_grow, List.getElem?_append, List.getElem?_replicate]
      split
      · rfl
      next hj =>
        rw [List.getElem?_eq_none (Nat.not_lt.mp hj)]
        split <;> rfl
  next h => exact ⟨Nat.not_le.mp h, fun _ => rfl⟩

theorem has_set (b : SymbolBits V) (s t : Symbol) (member : Bool) :
    (b.set s member).has t = if t.id = s.id ∧ 0 ≤ s.id then member else b.has t := by
  obtain ⟨s, _⟩ := s
  obtain ⟨t, _⟩ := t
  cases s with
  | negSucc i => simp [set, Symbol.index?, Int.toNat?]
  | ofNat i =>
      cases t with
      | negSucc j => simp [has, Symbol.index?, Int.toNat?]
      | ofNat j =>
          obtain ⟨hroom, hsame⟩ := b.room_spec i
          have hlt : i < (toList (b.room i)).length := length_eq (b.room i) ▸ hroom
          simp only [set, has, Symbol.index?, Int.toNat?, get?_eq, toList_set _ _ _ hroom,
            List.getElem?_set, ← hsame j]
          by_cases hij : i = j
          · simp [hij, hij ▸ hlt]
          · rw [if_neg hij, if_neg fun h => hij (Int.ofNat.inj h.1).symm]

theorem mem_ids {b : SymbolBits V} {i : Int} : i ∈ b.ids ↔ b.has ⟨i, .terminal⟩ = true := by
  cases i with
  | negSucc i => simp [ids, has, Symbol.index?, Int.toNat?]
  | ofNat i =>
      simp only [ids, has, Symbol.index?, Int.toNat?, get?_eq, List.mem_map, List.mem_filter,
        Prod.exists, List.mem_zipIdx_iff_getElem?]
      constructor
      · rintro ⟨present, j, ⟨hj, hpresent⟩, h⟩
        cases Int.ofNat.inj h
        rw [hj]
        exact hpresent
      · intro h
        refine ⟨true, i, ⟨?_, rfl⟩, rfl⟩
        cases hi : (toList b.bits)[i]? with
        | none =>
            rw [hi] at h
            cases h
        | some present =>
            rw [hi] at h
            exact congrArg some h

end SymbolBits

end Lookahead
