import Lookahead.Proofs.First.Rounds
import Lookahead.Proofs.Grammar.Assembled
import Mathlib.Order.Bounds.Defs

/-!
# The rounds come to rest

`Settles t k u` is a run of the rounds without any bound on their number: `k`
rounds lead from `t` to `u`, every one of them but the last changes the table,
and the last one does not. Playing rounds on fuel computes such a run as soon as
the fuel reaches a round that changes nothing, and the tables after many rounds
show that the fuel at hand always does.

A round that changes the table loses no member and gains one, so the number of
rounds is the number of tables that differ, and it is at most twice the number
of nonterminals and one more.
-/
namespace Lookahead

/-- No symbol comes or goes, no member is lost, and one is gained. -/
structure FirstTable.Enlarged (t u : FirstTable) : Prop where
  listed : ∀ s : Symbol, (t.find? s).isSome ↔ (u.find? s).isSome
  kept : ∀ s : Symbol, t.setOf s ⊆ u.setOf s
  gained : ∃ s a : Symbol, a ∈ u.setOf s ∧ a ∉ t.setOf s

namespace Grammar

variable {g : Grammar} {t u : FirstTable} {s a : Symbol} {j k fuel : ℕ}

inductive Settles (g : Grammar) : FirstTable → ℕ → FirstTable → Prop
  | rest {t : FirstTable} : (g.nextTable t).same t = true → Settles g t 1 (g.nextTable t)
  | move {t u : FirstTable} {k : ℕ} : (g.nextTable t).same t = false →
      Settles g (g.nextTable t) k u → Settles g t (k + 1) u

theorem Settles.iterate (h : g.Settles t k u) :
    ∃ i, k = i + 1 ∧ u = g.nextTable^[i + 1] t ∧
      (g.nextTable^[i + 1] t).same (g.nextTable^[i] t) = true ∧
      ∀ l < i, (g.nextTable^[l + 1] t).same (g.nextTable^[l] t) = false := by
  induction h with
  | rest hs => exact ⟨0, rfl, rfl, hs, fun l hl => absurd hl l.not_lt_zero⟩
  | @move t u k hs _ ih =>
      obtain ⟨i, hk, hu, hi, hl⟩ := ih
      refine ⟨i + 1, by rw [hk], hu, hi, ?_⟩
      intro l hl'
      cases l with
      | zero => exact hs
      | succ l => exact hl l (Nat.lt_of_succ_lt_succ hl')

/-- Fuel that reaches a round without change is enough. -/
theorem settles_settle (rounds : ℕ)
    (h : ∃ i < fuel, (g.nextTable^[i + 1] t).same (g.nextTable^[i] t) = true) :
    ∃ k, (g.settle fuel rounds t).value.rounds = rounds + k ∧
      g.Settles t k (g.settle fuel rounds t).value.table := by
  induction fuel generalizing t rounds with
  | zero =>
      obtain ⟨i, hi, _⟩ := h
      exact absurd hi i.not_lt_zero
  | succ fuel ih =>
      cases hs : (g.nextTable t).same t with
      | true =>
          refine ⟨1, ?_, ?_⟩
          · simp [settle, hs]
          · simpa [settle, hs] using Settles.rest hs
      | false =>
          obtain ⟨i, hi, hsame⟩ := h
          have hnext : ∃ i < fuel, (g.nextTable^[i + 1] (g.nextTable t)).same
              (g.nextTable^[i] (g.nextTable t)) = true := by
            cases i with
            | zero =>
                have hf : (g.nextTable t).same t = true := hsame
                rw [hs] at hf
                cases hf
            | succ i => exact ⟨i, Nat.lt_of_succ_lt_succ hi, hsame⟩
          obtain ⟨k, hk, hr⟩ := ih (rounds + 1) hnext
          refine ⟨k + 1, ?_, ?_⟩
          · simp [settle, hs, hk, Nat.add_assoc, Nat.add_comm 1 k]
          · simpa [settle, hs] using Settles.move hs hr

theorem restBound_lt_roundBound (g : Grammar) : g.restBound < g.roundBound := by
  have h : min 2 g.alphabetSize ≤ g.registry.terminals.length + 2 := by omega
  exact Nat.lt_succ_of_le (Nat.mul_le_mul_left g.registry.nonterminals.length h)

theorem solveFirst_settles (g : Grammar) :
    g.Settles g.initialTable g.solveFirst.value.rounds g.solveFirst.value.table := by
  have hsame : (g.tableAfter (g.restBound + 1)).same (g.tableAfter g.restBound) = true :=
    same_tableAfter_of_le (Nat.le_succ _)
  obtain ⟨k, hk, hr⟩ := settles_settle (g := g) 0 ⟨_, g.restBound_lt_roundBound, hsame⟩
  rw [Nat.zero_add] at hk
  change g.Settles g.initialTable (g.settle g.roundBound 0 g.initialTable).value.rounds
    (g.settle g.roundBound 0 g.initialTable).value.table
  rw [hk]
  exact hr

/-- The solution is the table after the first round without change. -/
theorem solveFirst_eq (g : Grammar) :
    ∃ k, g.solveFirst.value = ⟨g.tableAfter (k + 1), k + 1⟩ ∧
      (g.tableAfter (k + 1)).same (g.tableAfter k) = true ∧
      ∀ l < k, (g.tableAfter (l + 1)).same (g.tableAfter l) = false := by
  obtain ⟨k, hk, hu, hi, hl⟩ := g.solveFirst_settles.iterate
  refine ⟨k, ?_, hi, hl⟩
  have he : g.solveFirst.value = ⟨g.solveFirst.value.table, g.solveFirst.value.rounds⟩ := rfl
  rw [he, hk, hu]
  rfl

theorem nextTable_same (h : t.same u = true) :
    (g.nextTable t).same (g.nextTable u) = true := by
  rw [FirstTable.same_iff_le] at h ⊢
  exact ⟨g.nextTable_mono h.1, g.nextTable_mono h.2⟩

theorem solveFirst_table (g : Grammar) :
    g.solveFirst.value.table = g.tableAfter g.solveFirst.value.rounds := by
  obtain ⟨k, he, _⟩ := g.solveFirst_eq
  rw [he]

/-- A table that a round leaves alone is left alone for good. -/
theorem same_tableAfter_of_rest (h : (g.tableAfter (k + 1)).same (g.tableAfter k) = true)
    (hk : k ≤ j) : (g.tableAfter j).same (g.tableAfter k) = true := by
  induction hk with
  | refl => exact FirstTable.same_iff.mpr rfl
  | @step j _ ih =>
      have hnext := nextTable_same (g := g) ih
      rw [← tableAfter_succ, ← tableAfter_succ] at hnext
      rw [FirstTable.same_iff] at h hnext ⊢
      exact hnext.trans h

theorem tableAfter_le_solveFirst (g : Grammar) (j : ℕ) :
    g.tableAfter j ≤ g.solveFirst.value.table := by
  obtain ⟨k, he, hs, _⟩ := g.solveFirst_eq
  rw [he]
  rcases Nat.le_total j (k + 1) with hj | hj
  · exact g.tableAfter_mono hj
  · have hjk := same_tableAfter_of_rest hs (Nat.le_of_succ_le hj)
    exact (FirstTable.same_iff_le.mp hjk).1.trans (g.tableAfter_mono (Nat.le_succ k))

/-- One more round leaves the solution alone. -/
theorem nextTable_solveFirst_same (g : Grammar) :
    (g.nextTable g.solveFirst.value.table).same g.solveFirst.value.table = true := by
  obtain ⟨k, he, hs, _⟩ := g.solveFirst_eq
  rw [he, ← tableAfter_succ]
  have h1 := same_tableAfter_of_rest hs (Nat.le_succ_of_le (Nat.le_succ k))
  rw [FirstTable.same_iff] at h1 hs ⊢
  exact h1.trans hs.symm

theorem enlarged_of_not_same (h : (g.tableAfter (k + 1)).same (g.tableAfter k) = false) :
    (g.tableAfter k).Enlarged (g.tableAfter (k + 1)) where
  listed s := by rw [isSome_tableAfter, isSome_tableAfter]
  kept := FirstTable.setOf_subset_of_le (g.tableAfter_mono (Nat.le_succ k))
  gained := by
    by_contra hno
    have hsame : (g.tableAfter (k + 1)).same (g.tableAfter k) = true := by
      rw [same_tableAfter_iff]
      intro s a
      constructor
      · intro ha
        by_contra hna
        exact hno ⟨s, a, ha, hna⟩
      · exact FirstTable.setOf_subset_of_le (g.tableAfter_mono (Nat.le_succ k)) s a
    rw [h] at hsame
    cases hsame

/-- Two grammars whose rounds change something equally often take equally many. -/
theorem rounds_eq_of_same_iff {g g' : Grammar}
    (h : ∀ k, (g.tableAfter (k + 1)).same (g.tableAfter k) = true ↔
      (g'.tableAfter (k + 1)).same (g'.tableAfter k) = true) :
    g'.solveFirst.value.rounds = g.solveFirst.value.rounds := by
  obtain ⟨k, he, hs, hl⟩ := g.solveFirst_eq
  obtain ⟨k', he', hs', hl'⟩ := g'.solveFirst_eq
  have hk : k' = k := by
    rcases Nat.lt_trichotomy k' k with hlt | heq | hlt
    · have hf := hl k' hlt
      rw [(h k').mpr hs'] at hf
      cases hf
    · exact heq
    · have hf := hl' k hlt
      rw [(h k).mp hs] at hf
      cases hf
  rw [he, he', hk]

/-- The rounds end by themselves, at the first one without change; each one
before it enlarges the table, and there are at most two for each nonterminal. -/
theorem solveFirst_rounds (g : Grammar) :
    g.Settles g.initialTable g.solveFirst.value.rounds g.solveFirst.value.table ∧
      (∀ k, k + 1 < g.solveFirst.value.rounds →
        (g.tableAfter k).Enlarged (g.tableAfter (k + 1))) ∧
      (g.tableAfter g.solveFirst.value.rounds).same
        (g.tableAfter (g.solveFirst.value.rounds - 1)) = true ∧
      g.solveFirst.value.table = g.tableAfter g.solveFirst.value.rounds ∧
      IsLeast {k | (g.tableAfter k).same g.solveFirst.value.table = true}
        (g.solveFirst.value.rounds - 1) ∧
      1 ≤ g.solveFirst.value.rounds ∧
      g.solveFirst.value.rounds ≤ g.registry.nonterminals.length * min 2 g.alphabetSize + 1 ∧
      g.solveFirst.value.rounds ≤ 2 * g.registry.nonterminals.length + 1 := by
  refine ⟨g.solveFirst_settles, ?_⟩
  obtain ⟨k, he, hs, hl⟩ := g.solveFirst_eq
  have hbound : k ≤ g.restBound := by
    by_contra hk
    have hrest := same_tableAfter_of_le (g := g) (Nat.le_succ g.restBound)
    rw [hl g.restBound (Nat.lt_of_not_le hk)] at hrest
    cases hrest
  have htwo : g.restBound ≤ 2 * g.registry.nonterminals.length := by
    unfold restBound
    rw [Nat.mul_comm]
    exact Nat.mul_le_mul_right _ (Nat.min_le_left 2 _)
  rw [he]
  refine ⟨?_, hs, rfl, ⟨?_, ?_⟩, Nat.le_add_left 1 k, Nat.succ_le_succ hbound,
    Nat.succ_le_succ (hbound.trans htwo)⟩
  · intro l hlk
    exact enlarged_of_not_same (hl l (Nat.lt_of_succ_lt_succ hlk))
  · change (g.tableAfter k).same (g.tableAfter (k + 1)) = true
    rw [FirstTable.same_iff] at hs ⊢
    exact hs.symm
  · intro l (hlk : (g.tableAfter l).same (g.tableAfter (k + 1)) = true)
    -- An earlier table that is the last one already would have ended the rounds before.
    by_contra hnot
    have hlt : l < k := Nat.lt_of_not_le hnot
    have hle : g.tableAfter (l + 1) ≤ g.tableAfter l :=
      (g.tableAfter_mono (by omega)).trans (FirstTable.same_iff_le.mp hlk).2
    have hsame : (g.tableAfter (l + 1)).same (g.tableAfter l) = true :=
      FirstTable.same_iff_le.mpr ⟨hle, g.tableAfter_mono (Nat.le_succ l)⟩
    rw [hl l hlt] at hsame
    cases hsame

/-- The bound is attained: one nonterminal, three rounds. -/
example : repetition.solveFirst.value.rounds = 3 := by decide

end Grammar

end Lookahead
