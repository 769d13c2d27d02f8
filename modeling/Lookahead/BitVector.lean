/-!
# Bit vectors

What sets of identities ask of the vector that holds their bits: operations, and what
these are relied on to do. A vector stands for the list of its bits, growing appends to
that list, and bits are read and written by index. Nothing is relied on for a write past
the end. An array of truth values is such a vector.
-/
namespace Lookahead

class BitVector (V : Type) where
  empty : V
  length : V → Nat
  get? : V → Nat → Option Bool
  /-- Append so many copies of one bit. -/
  grow : V → Nat → Bool → V
  set : V → Nat → Bool → V
  /-- The bits in the order in which an iteration shows them. -/
  toList : V → List Bool

open BitVector in
class LawfulBitVector (V : Type) [BitVector V] : Prop where
  toList_empty : toList (empty : V) = []
  length_eq (v : V) : length v = (toList v).length
  get?_eq (v : V) (i : Nat) : get? v i = (toList v)[i]?
  toList_grow (v : V) (n : Nat) (bit : Bool) : toList (grow v n bit) = toList v ++ .replicate n bit
  toList_set (v : V) (i : Nat) (bit : Bool) (h : i < length v) :
    toList (set v i bit) = (toList v).set i bit

instance : BitVector (Array Bool) where
  empty := #[]
  length v := v.size
  get? v i := v[i]?
  grow v n bit := v ++ Array.replicate n bit
  set v i bit := v.setIfInBounds i bit
  toList v := v.toList

instance : LawfulBitVector (Array Bool) where
  toList_empty := rfl
  length_eq _ := rfl
  get?_eq _ _ := Array.getElem?_toList.symm
  toList_grow _ _ _ := by simp [BitVector.grow, BitVector.toList]
  toList_set _ _ _ _ := by simp [BitVector.set, BitVector.toList]

end Lookahead
