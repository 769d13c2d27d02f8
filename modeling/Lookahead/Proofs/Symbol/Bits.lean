import Lookahead.Symbol.Bits
import Mathlib.Data.List.Induction
import Mathlib.Logic.Function.Iterate

/-!
# Sets of identities and their members

A set that was written to any number of times holds what was written last under each
identity, whatever vector has its bits, as long as it obeys the laws. Room for a far
identity is made of absent bits, so making it, for either value, brings in no other member.

The enumeration is one list for all ways of going through it: a cursor shows its
members in order, wherever it was left before, and nothing after the last
(`Cursor.answer_eq`).
-/
namespace Lookahead.SymbolBits

open BitVector

variable {V : Type} [BitVector V] {b : SymbolBits V} {s t : Symbol} {kind : Kind} {member : Bool}

theorem has_congr (b : SymbolBits V) (h : s.id = t.id) : b.has s = b.has t := by
  simp only [has, Symbol.index?, h]

section Write

theorem set_of_neg (b : SymbolBits V) (h : s.id < 0) : b.set s member = b := by
  obtain ⟨i, k⟩ := s
  cases i with
  | ofNat i => exact absurd h (Int.not_lt.mpr (Int.natCast_nonneg i))
  | negSucc i => rfl

/-- The set after these writes to an empty one, in this order. -/
def ofWrites (V : Type) [BitVector V] (writes : List (Symbol × Bool)) : SymbolBits V :=
  writes.foldl (fun b w => b.set w.1 w.2) .empty

/-- What was written last under the identity of `s`. -/
def lastWrite? (writes : List (Symbol × Bool)) (s : Symbol) : Option Bool :=
  (writes.reverse.find? (·.1.id = s.id)).map (·.2)

theorem ofWrites_concat (writes : List (Symbol × Bool)) (s : Symbol) (member : Bool) :
    ofWrites V (writes ++ [(s, member)]) = (ofWrites V writes).set s member := by
  unfold ofWrites
  rw [List.foldl_append]
  rfl

theorem lastWrite?_concat (writes : List (Symbol × Bool)) (s t : Symbol) (member : Bool) :
    lastWrite? (writes ++ [(s, member)]) t =
      if s.id = t.id then some member else lastWrite? writes t := by
  unfold lastWrite?
  rw [List.reverse_concat, List.find?_cons]
  by_cases h : s.id = t.id <;> simp [h]

theorem has_ofWrites [LawfulBitVector V] (writes : List (Symbol × Bool)) (s : Symbol) :
    (ofWrites V writes).has s = if 0 ≤ s.id then (lastWrite? writes s).getD false else false := by
  induction writes using List.reverseRecOn with
  | nil => simp [ofWrites, lastWrite?]
  | append_singleton writes w ih =>
      rw [ofWrites_concat, has_set, lastWrite?_concat, ih]
      by_cases h : w.1.id = s.id
      · simp only [h, true_and, if_true, Option.getD_some]
        split <;> rfl
      · simp [h, Ne.symm h]

end Write

section Enumeration

theorem mem_symbols [LawfulBitVector V] :
    s ∈ b.symbols kind ↔ s.kind = kind ∧ b.has s = true := by
  simp only [symbols, List.mem_map, mem_ids]
  constructor
  · rintro ⟨i, hi, rfl⟩
    exact ⟨rfl, hi⟩
  · intro h
    have hid : b.has ⟨s.id, .terminal⟩ = b.has s := b.has_congr rfl
    refine ⟨s.id, hid.trans h.2, ?_⟩
    rw [← h.1]

theorem pairwise_symbols (b : SymbolBits V) (kind : Kind) :
    (b.symbols kind).Pairwise (·.id < ·.id) :=
  List.pairwise_map.mpr b.pairwise_ids

namespace Cursor

/-- The members that a cursor has yet to show. -/
def remaining (c : Cursor) : List Symbol :=
  ((c.rest.zipIdx c.position).filter (·.1)).map fun e => ⟨e.2, c.kind⟩

/-- What the cursor answers when it is asked again after `k` times. -/
def answer (c : Cursor) (k : ℕ) : Option Symbol := ((fun d => d.next.2)^[k] c).next.1

theorem next_fst (c : Cursor) : c.next.1 = c.remaining.head? := by
  obtain ⟨rest, i, kind⟩ := c
  induction rest generalizing i with
  | nil => rfl
  | cons present rest ih =>
      cases present with
      | true => rfl
      | false => exact ih (i + 1)

theorem remaining_next (c : Cursor) : c.next.2.remaining = c.remaining.tail := by
  obtain ⟨rest, i, kind⟩ := c
  induction rest generalizing i with
  | nil => rfl
  | cons present rest ih =>
      cases present with
      | true => rfl
      | false => exact ih (i + 1)

theorem remaining_iterate (c : Cursor) (k : ℕ) :
    ((fun d => d.next.2)^[k] c).remaining = c.remaining.drop k := by
  induction k with
  | zero => rfl
  | succ k ih => rw [Function.iterate_succ_apply', remaining_next, ih, List.tail_drop]

/-- A cursor shows its members one after the other, and then nothing more. -/
theorem answer_eq (c : Cursor) (k : ℕ) : c.answer k = c.remaining[k]? := by
  unfold answer
  rw [next_fst, remaining_iterate, List.head?_drop]

end Cursor

theorem remaining_cursor (b : SymbolBits V) (kind : Kind) :
    (b.cursor kind).remaining = b.symbols kind := by
  unfold Cursor.remaining cursor symbols ids
  rw [List.map_map]
  rfl

/-- `l` lists the members by rising identity, each once and with the kind asked for, and
a cursor shows this list. -/
structure Enumerates (b : SymbolBits V) (kind : Kind) (l : List Symbol) : Prop where
  answer : ∀ k, (b.cursor kind).answer k = l[k]?
  member : ∀ s, s ∈ l ↔ s.kind = kind ∧ b.has s = true
  ascending : l.Pairwise (·.id < ·.id)

theorem enumerates_symbols [LawfulBitVector V] (b : SymbolBits V) (kind : Kind) :
    b.Enumerates kind (b.symbols kind) where
  answer k := by rw [Cursor.answer_eq, remaining_cursor]
  member _ := mem_symbols
  ascending := b.pairwise_symbols kind

end Enumeration

/-- After any writes a set holds what was written last under each identity. A negative
identity never is a member, and writing to it changes nothing; writing to any other, near
or far, leaves all memberships alone but its own. The members are enumerated by rising
identity, each once, with the kind that was asked for. -/
theorem ofWrites_members [LawfulBitVector V] (writes : List (Symbol × Bool)) :
    (∀ s, (ofWrites V writes).has s =
        if 0 ≤ s.id then (lastWrite? writes s).getD false else false) ∧
      (∀ s member, s.id < 0 → ofWrites V (writes ++ [(s, member)]) = ofWrites V writes) ∧
      (∀ s member t, t.id ≠ s.id →
        (ofWrites V (writes ++ [(s, member)])).has t = (ofWrites V writes).has t) ∧
      ∀ kind, (ofWrites V writes).Enumerates kind ((ofWrites V writes).symbols kind) := by
  refine ⟨has_ofWrites writes, ?_, ?_, fun kind => enumerates_symbols _ kind⟩
  · intro s member h
    rw [ofWrites_concat, set_of_neg _ h]
  · intro s member t h
    rw [ofWrites_concat, has_set, if_neg fun ht => h ht.1]

/-- Among the identities written to, one is negative, and `3` comes twice. -/
def fewWrites : List (Symbol × Bool) :=
  [(⟨3, .terminal⟩, true), (⟨0, .terminal⟩, true), (⟨-1, .terminal⟩, true),
    (⟨3, .nonterminal⟩, false)]

/-- With the bits in an array, the end marker does not get in, `3` is taken out under
another kind, and making room for `40` brings nothing in. -/
theorem ofWrites_members_few :
    (ofWrites (Array Bool) fewWrites).has ⟨-1, .terminal⟩ = false ∧
      (ofWrites (Array Bool) fewWrites).has ⟨3, .terminal⟩ = false ∧
      ofWrites (Array Bool) (fewWrites ++ [(⟨-2, .terminal⟩, true)]) =
        ofWrites (Array Bool) fewWrites ∧
      (ofWrites (Array Bool) (fewWrites ++ [(⟨40, .terminal⟩, false)])).has ⟨0, .terminal⟩ =
        true ∧
      ((ofWrites (Array Bool) fewWrites).cursor .nonterminal).answer 0 =
        some ⟨0, .nonterminal⟩ ∧
      ((ofWrites (Array Bool) fewWrites).cursor .nonterminal).answer 1 = none := by
  obtain ⟨hhas, hneg, hother, henum⟩ := ofWrites_members (V := Array Bool) fewWrites
  refine ⟨hhas _, hhas _, hneg _ true (by decide), ?_, (henum _).answer 0, (henum _).answer 1⟩
  rw [hother _ false _ (by decide)]
  exact hhas _

end Lookahead.SymbolBits
