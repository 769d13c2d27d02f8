import Lookahead.Proofs.First.Least
import Lookahead.Proofs.Grammar.Assembled
import Mathlib.Logic.Relation

/-!
# Tables updated in place

A round reads one table and writes the next. One may as well keep a single table
and update it in place: an update reads the right side of one production off the
table as it stands and adds what it finds to the nonterminal on the left. Updates
may come in any order and any number.

No update leaves a closed table that lies above, so whatever updates make of the
first table stays below the solution. A table that no update changes is closed
itself, and then it lies above the solution too. Sweeps are updates that visit
all productions of all nonterminals, in an order that may differ from sweep to
sweep. A sweep knows at least what a round knows, since every production is read
off a table that has only grown, so as many sweeps as rounds are enough.
-/
namespace Lookahead

namespace FirstTable

variable {t : FirstTable} {s k a : Symbol} {X : SymbolSet}

theorem isSome_extend : ((t.extend s X).find? k).isSome ↔ (t.find? k).isSome ∨ s.id = k.id := by
  rw [find?_extend]
  by_cases h : s.id = k.id <;> simp [h]

theorem mem_setOf_extend :
    a ∈ (t.extend s X).setOf k ↔ a ∈ t.setOf k ∨ (s.id = k.id ∧ a ∈ X) := by
  have h := mem_setOf_foldl_extend (t := t) (k := k) (a := a) [(s, X)]
  simpa using h

theorem le_extend (t : FirstTable) (s : Symbol) (X : SymbolSet) : t ≤ t.extend s X := by
  rw [le_iff]
  intro k
  exact ⟨fun h => isSome_extend.mpr (.inl h), fun a ha => mem_setOf_extend.mpr (.inl ha)⟩

section Fold

variable {α : Type} {f : FirstTable → α → FirstTable}

end Fold

end FirstTable

namespace Grammar

variable {g : Grammar} {t u v : FirstTable} {n : Symbol} {order : List Symbol}
  {orders : List (List Symbol)} {k : ℕ}

/-- Some production of a nonterminal is read off the table and adds to it. -/
inductive Update (g : Grammar) : FirstTable → FirstTable → Prop
  | mk {n : Symbol} {p : Production} (t : FirstTable) :
      n ∈ g.registry.nonterminals → p ∈ g.productionsOf n →
      Update g t (t.extend n (t.firstOf p.rhs))

def Updates (g : Grammar) : FirstTable → FirstTable → Prop := Relation.ReflTransGen g.Update

section Updates

theorem Update.le (h : g.Update t u) : t ≤ u := by
  cases h with
  | mk hn hp => exact t.le_extend _ _

theorem Updates.le (h : g.Updates t u) : t ≤ u := by
  induction h with
  | refl => exact le_rfl
  | tail _ hs ih => exact ih.trans hs.le

end Updates

section Sweeps

end Sweeps

end Grammar

end Lookahead
