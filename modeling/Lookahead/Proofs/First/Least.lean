import Lookahead.Proofs.First.Settling

/-!
# The solution is the least one

A table solves a grammar when every nonterminal holds exactly what the right
sides of its productions can start with. The rounds arrive at such a table
(`mem_setOf_solveFirst`), and below every table that extends the first one and
that no production can add to: a round reads off a smaller table no more than
off a larger one, so no round ever leaves the larger table.
-/
namespace Lookahead.Grammar

variable {g : Grammar} {u : FirstTable} {s a : Symbol} {k : ℕ}

/-- No production of a nonterminal adds to `u`. -/
def Closed (g : Grammar) (u : FirstTable) : Prop :=
  ∀ n ∈ g.registry.nonterminals, ∀ p ∈ g.productionsOf n, u.firstOf p.rhs ⊆ u.setOf n

theorem Closed.subset (h : g.Closed u) {p : Production} (hp : g.Rewrites s p) :
    u.firstOf p.rhs ⊆ u.setOf s := by
  obtain ⟨⟨n, hn, hs⟩, hp⟩ := hp
  rw [← productionsOf_congr hs] at hp
  rw [← u.setOf_congr hs]
  exact h n hn p hp

theorem tableAfter_le_of_closed (h0 : g.initialTable ≤ u) (hc : g.Closed u) (k : ℕ) :
    g.tableAfter k ≤ u := by
  induction k with
  | zero => exact h0
  | succ k ih =>
      rw [FirstTable.le_iff] at h0 ⊢
      intro s
      constructor
      · intro hs
        exact (h0 s).1 (isSome_initialTable.mpr (isSome_tableAfter.mp hs))
      · intro a ha
        rcases mem_setOf_tableAfter_succ.mp ha with ha | ⟨p, hp, ha⟩
        · exact FirstTable.setOf_subset_of_le ih s a ha
        · apply hc.subset hp
          exact FirstTable.firstOf_mono (FirstTable.setOf_subset_of_le ih) p.rhs a ha

theorem isSome_solveFirst : (g.solveFirst.value.table.find? s).isSome ↔ g.Listed s := by
  rw [solveFirst_table]
  exact isSome_tableAfter

theorem Assembled.id_le_of_listed (hg : g.Assembled) (hs : g.Listed s) :
    s.id ≤ g.registry.size := by
  rcases hs with h0 | hl | hn
  · omega
  · rcases hl with ⟨b, hb, hid⟩ | ⟨_, hid⟩
    · have hle := (hg.issued.terminal_id hb).2
      omega
    · rw [hid, Symbol.endMarker_id]
      omega
  · obtain ⟨n, hn, hid⟩ := hn
    have hle := hg.issued.lt_nextId_iff.mp (Registry.mem_nonterminals.mp hn).2.2.1
    omega

theorem find?_solveFirst (h : g.Listed s) :
    g.solveFirst.value.table.find? s = some (g.solveFirst.value.table.setOf s) :=
  FirstTable.find?_eq_some_setOf (isSome_solveFirst.mpr h)

theorem find?_solveFirst_of_not_nonterminal (h : ¬ g.Nonterminal s) :
    g.solveFirst.value.table.find? s = g.initialTable.find? s := by
  rw [solveFirst_table]
  exact find?_tableAfter_of_not_nonterminal h

/-- The solution holds what some round has found. -/
theorem mem_solveFirst_iff_exists :
    a ∈ g.solveFirst.value.table.setOf s ↔ ∃ k, a ∈ (g.tableAfter k).setOf s := by
  constructor
  · intro h
    rw [solveFirst_table] at h
    exact ⟨g.solveFirst.value.rounds, h⟩
  · intro h
    obtain ⟨k, h⟩ := h
    exact FirstTable.setOf_subset_of_le (g.tableAfter_le_solveFirst k) s a h

/-- Strings start with letters, or vanish. -/
theorem letter_of_mem_solveFirst {α : List Symbol}
    (h : a ∈ g.solveFirst.value.table.firstOf α) : a.id = 0 ∨ g.Letter a := by
  rcases FirstTable.eq_or_exists_of_mem_firstOf h with h0 | ⟨s, _, h⟩
  · exact .inl h0
  · obtain ⟨k, hk⟩ := mem_solveFirst_iff_exists.mp h
    exact letter_of_mem_setOf_tableAfter hk

theorem closed_solveFirst (g : Grammar) : g.Closed g.solveFirst.value.table := by
  intro n hn p hp a ha
  have hsame := FirstTable.same_iff_setOf.mp g.nextTable_solveFirst_same n
  apply (hsame.2 a).mp
  exact mem_setOf_nextTable.mpr (.inr ⟨p, ⟨⟨n, hn, rfl⟩, hp⟩, ha⟩)

/-- What a symbol holds comes from itself or from a right side that rewrites it. -/
theorem mem_setOf_solveFirst :
    a ∈ g.solveFirst.value.table.setOf s ↔
      (a.id = s.id ∧ (s.id = 0 ∨ g.Letter s)) ∨
        ∃ p, g.Rewrites s p ∧ a ∈ g.solveFirst.value.table.firstOf p.rhs := by
  constructor
  · intro h
    obtain ⟨k, h⟩ := mem_solveFirst_iff_exists.mp h
    induction k with
    | zero => exact .inl (mem_setOf_initialTable.mp h)
    | succ k ih =>
        rcases mem_setOf_tableAfter_succ.mp h with h | ⟨p, hp, h⟩
        · exact ih h
        · have hle := FirstTable.setOf_subset_of_le (g.tableAfter_le_solveFirst k)
          exact .inr ⟨p, hp, FirstTable.firstOf_mono hle p.rhs a h⟩
  · intro h
    rcases h with h | ⟨p, hp, h⟩
    · have h0 : a ∈ (g.tableAfter 0).setOf s := mem_setOf_initialTable.mpr h
      exact mem_solveFirst_iff_exists.mpr ⟨0, h0⟩
    · exact g.closed_solveFirst.subset hp a h

theorem mem_setOf_solveFirst_of_nonterminal (hs : g.Nonterminal s) :
    a ∈ g.solveFirst.value.table.setOf s ↔
      ∃ p ∈ g.productionsOf s, a ∈ g.solveFirst.value.table.firstOf p.rhs := by
  have hno : ¬ (a.id = s.id ∧ (s.id = 0 ∨ g.Letter s)) := by
    intro h
    rcases h.2 with h0 | hl
    · have hpos := hs.id_pos
      omega
    · exact hs.not_letter hl
  rw [mem_setOf_solveFirst, or_iff_right hno]
  simp only [Rewrites, hs, true_and]

/-- The rounds arrive at the least of the tables that solve the grammar. -/
theorem solveFirst_least (g : Grammar) :
    (∀ n ∈ g.registry.nonterminals, ∃ X, g.solveFirst.value.table.find? n = some X ∧
      ∀ a, a ∈ X ↔ ∃ p ∈ g.productionsOf n, a ∈ g.solveFirst.value.table.firstOf p.rhs) ∧
    (∀ s, ¬ g.Nonterminal s →
      g.solveFirst.value.table.find? s = g.initialTable.find? s) ∧
    ∀ u, g.initialTable ≤ u → g.Closed u → g.solveFirst.value.table ≤ u := by
  refine ⟨?_, ?_, ?_⟩
  · intro n hn
    have hnonterminal : g.Nonterminal n := ⟨n, hn, rfl⟩
    refine ⟨_, find?_solveFirst (.inr (.inr hnonterminal)), ?_⟩
    intro a
    exact mem_setOf_solveFirst_of_nonterminal hnonterminal
  · intro s hs
    exact find?_solveFirst_of_not_nonterminal hs
  · intro u h0 hc
    rw [solveFirst_table]
    exact tableAfter_le_of_closed h0 hc g.solveFirst.value.rounds

end Lookahead.Grammar
