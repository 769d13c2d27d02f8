import Lookahead.Proofs.First.Table
import Mathlib.Algebra.Group.Defs

/-!
# Products of first sets

When a string is cut in two, what it can start with is known from the sets of the
two parts: the left set alone as long as the left part cannot vanish, and otherwise
both sets, less the empty string of the left one. This is a product on sets of
symbols. It is associative, the set of the empty string is its unit, and taking
the set of a string turns joining into multiplying, for any table at all
(`firstOf_append`).

Equations between sets are about the labels of their symbols as well. So they are
proved by looking up identities: of two sets joined, the left one answers first.
Only the unit on the right is one up to labels, since it brings its own empty string.
-/
namespace Lookahead

namespace SymbolSet

variable {X Y Z : SymbolSet} {s : Symbol} {i : ℤ}

section Lookup

/-- The symbol that holds the identity in the set, under its label there. -/
def find? (X : SymbolSet) (i : ℤ) : Option Symbol := X.toList.find? (·.id = i)

theorem find?_eq_some_iff : X.find? i = some s ↔ s ∈ X.toList ∧ s.id = i :=
  Ascending.find?_eq_some_iff Symbol.id X.ascending

/-- Sets that answer alike for every identity are equal, labels included. -/
theorem eq_of_find? (h : ∀ i, X.find? i = Y.find? i) : X = Y := by
  have hlist : X.toList = Y.toList := by
    apply Ascending.eq_of_mem_iff Symbol.id X.ascending Y.ascending
    intro s
    have hs : s ∈ X.toList ∧ s.id = s.id ↔ s ∈ Y.toList ∧ s.id = s.id := by
      rw [← find?_eq_some_iff, ← find?_eq_some_iff, h]
    simpa using hs
  cases X
  cases Y
  cases hlist
  rfl

theorem find?_empty (i : ℤ) : (∅ : SymbolSet).find? i = none := rfl

/-- The left set answers first. -/
theorem find?_union : (X ∪ Y).find? i = (X.find? i).or (Y.find? i) :=
  Ascending.find?_merge Symbol.id X.ascending Y.toList i

theorem find?_withoutEpsilon : X.withoutEpsilon.find? i = if i = 0 then none else X.find? i := by
  ext s
  rw [find?_eq_some_iff]
  simp only [withoutEpsilon, List.mem_filter, Bool.not_eq_true', Bool.eq_false_iff, ne_eq,
    Symbol.isEpsilon_iff]
  split
  next h0 => simp [h0]
  next h0 =>
    rw [find?_eq_some_iff]
    constructor
    · intro hs
      exact ⟨hs.1.1, hs.2⟩
    · intro hs
      exact ⟨⟨hs.1, hs.2 ▸ h0⟩, hs.2⟩

theorem union_assoc (X Y Z : SymbolSet) : X ∪ Y ∪ Z = X ∪ (Y ∪ Z) := by
  apply eq_of_find?
  intro i
  simp only [find?_union, Option.or_assoc]

theorem empty_union (X : SymbolSet) : ∅ ∪ X = X := by
  apply eq_of_find?
  intro i
  rw [find?_union, find?_empty, Option.none_or]

theorem withoutEpsilon_union (X Y : SymbolSet) :
    (X ∪ Y).withoutEpsilon = X.withoutEpsilon ∪ Y.withoutEpsilon := by
  apply eq_of_find?
  intro i
  simp only [find?_union, find?_withoutEpsilon]
  split <;> simp

theorem withoutEpsilon_withoutEpsilon (X : SymbolSet) :
    X.withoutEpsilon.withoutEpsilon = X.withoutEpsilon := by
  apply eq_of_find?
  intro i
  simp only [find?_withoutEpsilon]
  split <;> rfl

theorem withoutEpsilon_singleton : (singleton .epsilon).withoutEpsilon = ∅ := rfl

end Lookup

section Product

/-- What can come first when a part with the set `Y` follows one with the set `X`. -/
instance : Mul SymbolSet where
  mul X Y := if .epsilon ∈ X then X.withoutEpsilon ∪ Y else X

theorem mul_of_mem (h : .epsilon ∈ X) (Y : SymbolSet) : X * Y = X.withoutEpsilon ∪ Y := if_pos h

theorem mul_of_notMem (h : .epsilon ∉ X) (Y : SymbolSet) : X * Y = X := if_neg h

/-- The whole can vanish when both parts can. -/
theorem epsilon_mem_mul : .epsilon ∈ X * Y ↔ .epsilon ∈ X ∧ .epsilon ∈ Y := by
  by_cases h : .epsilon ∈ X
  · rw [mul_of_mem h]
    simp [h]
  · rw [mul_of_notMem h]
    simp [h]

instance : Semigroup SymbolSet where
  mul_assoc X Y Z := by
    by_cases hX : .epsilon ∈ X
    · by_cases hY : .epsilon ∈ Y
      · calc
          X * Y * Z = (X * Y).withoutEpsilon ∪ Z := mul_of_mem (epsilon_mem_mul.mpr ⟨hX, hY⟩) Z
          _ = X.withoutEpsilon ∪ Y.withoutEpsilon ∪ Z := by
            rw [mul_of_mem hX, withoutEpsilon_union, withoutEpsilon_withoutEpsilon]
          _ = X.withoutEpsilon ∪ (Y.withoutEpsilon ∪ Z) := union_assoc ..
          _ = X * (Y * Z) := by rw [mul_of_mem hX, mul_of_mem hY]
      · have hXY : .epsilon ∉ X * Y := fun h => hY (epsilon_mem_mul.mp h).2
        rw [mul_of_notMem hXY, mul_of_notMem hY]
    · rw [mul_of_notMem hX, mul_of_notMem hX, mul_of_notMem hX]

theorem singleton_epsilon_mul (X : SymbolSet) : singleton .epsilon * X = X := by
  have h : .epsilon ∈ singleton .epsilon := mem_singleton.mpr rfl
  rw [mul_of_mem h, withoutEpsilon_singleton, empty_union]

/-- The empty string of the product has the label of the unit. -/
theorem mul_singleton_epsilon (X : SymbolSet) : (X * singleton .epsilon).same X = true := by
  rw [same_iff, ids_eq_iff]
  intro s
  by_cases h : .epsilon ∈ X
  · rw [mul_of_mem h, mem_union, mem_withoutEpsilon, mem_singleton, Symbol.epsilon_id]
    by_cases h0 : s.id = 0
    · simp [h0, mem_congr (t := .epsilon) h0, h]
    · simp [h0]
  · rw [mul_of_notMem h]

end Product

end SymbolSet

namespace FirstTable

variable {t : FirstTable} {s : Symbol} {α : List Symbol}

theorem firstOf_nil (t : FirstTable) : t.firstOf [] = .singleton .epsilon := rfl

theorem firstOf_cons (t : FirstTable) (s : Symbol) (α : List Symbol) :
    t.firstOf (s :: α) = t.setOf s * t.firstOf α := by
  cases hs : t.find? s with
  | none =>
      have hset : t.setOf s = ∅ := by rw [setOf, hs, Option.getD_none]
      rw [hset, SymbolSet.mul_of_notMem (SymbolSet.notMem_empty _), firstOf, hs]
  | some X =>
      rw [setOf_of_find? hs, firstOf, hs]
      rfl

/-- Joining strings multiplies their sets. -/
theorem firstOf_append (t : FirstTable) (α β : List Symbol) :
    t.firstOf (α ++ β) = t.firstOf α * t.firstOf β := by
  induction α with
  | nil => rw [List.nil_append, firstOf_nil, SymbolSet.singleton_epsilon_mul]
  | cons s α ih => rw [List.cons_append, firstOf_cons, ih, firstOf_cons, mul_assoc]

theorem firstOf_singleton_same (t : FirstTable) (s : Symbol) :
    (t.firstOf [s]).same (t.setOf s) = true := by
  rw [firstOf_cons, firstOf_nil]
  exact SymbolSet.mul_singleton_epsilon _

/-- What follows a symbol that cannot vanish, or is not listed, does not matter. -/
theorem firstOf_append_cons (h : .epsilon ∉ t.setOf s) (α β : List Symbol) :
    t.firstOf (α ++ s :: β) = t.firstOf α * t.setOf s := by
  rw [firstOf_append, firstOf_cons, SymbolSet.mul_of_notMem h]

/-- Taking the set of a string is a homomorphism, whatever the table: the empty string
goes to the unit, a symbol to its set in the table, or the empty set, and joined
strings to the product of their sets. So a string can vanish exactly when each of its
symbols can, and nothing counts behind a symbol that cannot. -/
theorem firstOf_homomorphism (t : FirstTable) :
    t.firstOf [] = .singleton .epsilon ∧
      (∀ s, (t.firstOf [s]).same ((t.find? s).getD ∅) = true) ∧
      (∀ α β, t.firstOf (α ++ β) = t.firstOf α * t.firstOf β) ∧
      (∀ α, .epsilon ∈ t.firstOf α ↔ ∀ s ∈ α, .epsilon ∈ (t.find? s).getD ∅) ∧
      ∀ α s β γ, .epsilon ∉ (t.find? s).getD ∅ →
        t.firstOf (α ++ s :: β) = t.firstOf (α ++ s :: γ) := by
  refine ⟨t.firstOf_nil, t.firstOf_singleton_same, t.firstOf_append, ?_, ?_⟩
  · intro α
    exact epsilon_mem_firstOf
  · intro α s β γ h
    rw [firstOf_append_cons h α β, firstOf_append_cons h α γ]

/-- A nonterminal that can vanish or start with `2`, and nothing else. -/
def vanishingOrTwo : FirstTable :=
  .ofList [(⟨1, .nonterminal⟩, .ofList [.epsilon, ⟨2, .terminal⟩])]

/-- The unlisted `3` hides what comes after it, and keeps the string from vanishing. -/
theorem firstOf_homomorphism_unlisted :
    .epsilon ∉ (vanishingOrTwo.find? ⟨3, .terminal⟩).getD ∅ ∧
      vanishingOrTwo.firstOf ([⟨1, .nonterminal⟩] ++ ⟨3, .terminal⟩ :: [⟨1, .nonterminal⟩]) =
        vanishingOrTwo.firstOf ([⟨1, .nonterminal⟩] ++ ⟨3, .terminal⟩ :: []) ∧
      vanishingOrTwo.firstOf [⟨1, .nonterminal⟩, ⟨3, .terminal⟩] = .singleton ⟨2, .terminal⟩ := by
  have h : .epsilon ∉ (vanishingOrTwo.find? ⟨3, .terminal⟩).getD ∅ := by decide
  exact ⟨h, (firstOf_homomorphism vanishingOrTwo).2.2.2.2 _ _ _ _ h, by decide⟩

end FirstTable

end Lookahead
