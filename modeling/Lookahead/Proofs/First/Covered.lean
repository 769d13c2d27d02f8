import Lookahead.Proofs.First.Shape
import Mathlib.Data.Set.Basic

/-!
# Comparing two grammars

What the rounds find for a symbol is read off the right sides of its productions.
So two grammars can be compared on a part of their symbols, as long as the
productions there do not lead out of it: if the second grammar has every letter
and every production that the first one has there, it finds at least as much
there, in every round (`CoveredOn.tableAfter`) and in the end, however many
rounds each of the two takes.

The first use takes all symbols together: more productions never lose a member.
-/
namespace Lookahead.Grammar

variable {D : Set Symbol} {g g' : Grammar} {t t' : FirstTable} {s : Symbol} {p : Production}

/-- On `D` the second grammar has the letters and the productions of the first,
and those of the first do not lead out of `D`. -/
structure CoveredOn (D : Set Symbol) (g g' : Grammar) : Prop where
  letter : ∀ s ∈ D, g.Letter s → g'.Letter s
  rewrites : ∀ s ∈ D, ∀ p, g.Rewrites s p →
    ∃ q, g'.Rewrites s q ∧ q.rhs.map (·.id) = p.rhs.map (·.id)
  closed : ∀ s ∈ D, ∀ p, g.Rewrites s p → ∀ k ∈ p.rhs, k ∈ D

section Rounds

theorem CoveredOn.initialTable (h : CoveredOn D g g') (hs : s ∈ D) :
    g.initialTable.setOf s ⊆ g'.initialTable.setOf s := by
  intro a ha
  rw [mem_setOf_initialTable] at ha ⊢
  exact ⟨ha.1, ha.2.imp_right (h.letter s hs)⟩

/-- A round reads off the first table, on `D`, no more than off the second. -/
theorem CoveredOn.nextTable (h : CoveredOn D g g') (ht : ∀ k ∈ D, t.setOf k ⊆ t'.setOf k)
    (hs : s ∈ D) : (g.nextTable t).setOf s ⊆ (g'.nextTable t').setOf s := by
  intro a ha
  rw [mem_setOf_nextTable] at ha ⊢
  rcases ha with ha | ⟨p, hp, ha⟩
  · exact .inl (ht s hs a ha)
  · obtain ⟨q, hq, hids⟩ := h.rewrites s hs p hp
    have hrhs : t.firstOf p.rhs ⊆ t'.firstOf p.rhs :=
      FirstTable.firstOf_subset fun k hk => ht k (h.closed s hs p hp k hk)
    rw [← t'.firstOf_congr hids] at hrhs
    exact .inr ⟨q, hq, hrhs a ha⟩

theorem CoveredOn.tableAfter (h : CoveredOn D g g') (k : ℕ) :
    ∀ s ∈ D, (g.tableAfter k).setOf s ⊆ (g'.tableAfter k).setOf s := by
  induction k with
  | zero => exact fun s hs => h.initialTable hs
  | succ k ih =>
      intro s hs
      rw [tableAfter_succ, tableAfter_succ]
      exact h.nextTable ih hs

/-- The solutions compare as well, though their numbers of rounds need not. -/
theorem CoveredOn.solveFirst (h : CoveredOn D g g') (hs : s ∈ D) :
    g.solveFirst.value.table.setOf s ⊆ g'.solveFirst.value.table.setOf s := by
  intro a ha
  rw [mem_solveFirst_iff_exists] at ha ⊢
  exact ha.imp fun k hk => h.tableAfter k s hs a hk

/-- Where two grammars cover each other, both solutions have the same set. -/
theorem CoveredOn.find?_solveFirst_eq {D' : Set Symbol} (h : CoveredOn D g g')
    (h' : CoveredOn D' g' g) (hs : s ∈ D) (hs' : s ∈ D') (hl : g'.Listed s ↔ g.Listed s) :
    g'.solveFirst.value.table.find? s = g.solveFirst.value.table.find? s := by
  apply find?_solveFirst_congr hl
  intro a
  exact ⟨h'.solveFirst hs' a, h.solveFirst hs a⟩

end Rounds

section SameRegistry

variable (hr : g'.registry = g.registry)
include hr

theorem nonterminal_of_registry_eq (hs : g.Nonterminal s) : g'.Nonterminal s := by
  unfold Nonterminal
  rw [hr]
  exact hs

/-- Over one registry, grammars can only disagree on whether the end marker is a letter. -/
theorem letter_of_registry_eq
    (hm : s.id = Symbol.endMarker.id → g.mentionsEndMarker = true → g'.mentionsEndMarker = true)
    (hs : g.Letter s) : g'.Letter s := by
  rcases hs with ht | ⟨hg, hid⟩
  · rw [← hr] at ht
    exact .inl ht
  · exact .inr ⟨hm hid hg, hid⟩

theorem listed_of_registry_eq (hm : g.mentionsEndMarker = true → g'.mentionsEndMarker = true)
    (hs : g.Listed s) : g'.Listed s :=
  hs.imp_right <| Or.imp (letter_of_registry_eq hr fun _ => hm) (nonterminal_of_registry_eq hr)

theorem key_of_registry_eq (hm : g.mentionsEndMarker = true → g'.mentionsEndMarker = true)
    (hs : g.Key s) : g'.Key s := by
  unfold Key Member at hs ⊢
  rw [hr]
  exact hs.imp_left <| Or.imp_right <| Or.imp_right <| And.imp_left hm

/-- The other grammar rewrites a symbol alike if it files a production with the same
identities under it. -/
theorem exists_rewrites_of_ids (h : p.ids ∈ (g'.productionsOf s).map Production.ids)
    (hp : g.Rewrites s p) : ∃ q, g'.Rewrites s q ∧ q.ids = p.ids := by
  obtain ⟨q, hq, hids⟩ := List.mem_map.mp h
  exact ⟨q, ⟨nonterminal_of_registry_eq hr hp.1, hq⟩, hids⟩

end SameRegistry

section MoreProductions

variable (h : ∀ p ∈ g.productions, ∃ q ∈ g'.productions, q.ids = p.ids)
include h

theorem ids_mem_productionsOf (hp : p ∈ g.productionsOf s) :
    p.ids ∈ (g'.productionsOf s).map Production.ids := by
  rw [mem_productionsOf_iff_ids] at hp
  obtain ⟨q, hq, hids⟩ := h p hp.1
  have hlhs : q.lhs.map (·.id) = p.lhs.map (·.id) := congrArg Prod.fst hids
  exact List.mem_map.mpr ⟨q, mem_productionsOf_iff_ids.mpr ⟨hq, hlhs.trans hp.2⟩, hids⟩

theorem mentionsEndMarker_of_ids (hm : g.mentionsEndMarker = true) :
    g'.mentionsEndMarker = true := by
  rw [mentionsEndMarker_iff_ids] at hm ⊢
  obtain ⟨p, hp, hm⟩ := hm
  obtain ⟨q, hq, hids⟩ := h p hp
  have hrhs : q.rhs.map (·.id) = p.rhs.map (·.id) := congrArg Prod.snd hids
  exact ⟨q, hq, hrhs ▸ hm⟩

theorem coveredOn_univ (hr : g'.registry = g.registry) : CoveredOn Set.univ g g' where
  letter _ _ := letter_of_registry_eq hr fun _ => mentionsEndMarker_of_ids h
  rewrites _ _ _ hp := by
    obtain ⟨q, hq, hids⟩ := exists_rewrites_of_ids hr (ids_mem_productionsOf h hp.2) hp
    exact ⟨q, hq, congrArg Prod.snd hids⟩
  closed _ _ _ _ k _ := Set.mem_univ k

end MoreProductions

/-- More productions over one registry keep every key and lose no member, of a symbol
or of a string: the table grows with the grammar. -/
theorem analyze_mono {b b' : Analysis} (hr : g'.registry = g.registry)
    (h : ∀ p ∈ g.productions, ∃ q ∈ g'.productions, q.ids = p.ids)
    (hb : g.analyze.value = .ok b) (hb' : g'.analyze.value = .ok b') :
    (∀ s ∈ b.first.table.keys, s ∈ b'.first.table.keys) ∧
      (∀ s X, b.firstSet? s = some X → ∃ X', b'.firstSet? s = some X' ∧ X ⊆ X') ∧
      ∀ α, b.firstOf α ⊆ b'.firstOf α := by
  rw [(value_analyze.mp hb).2, (value_analyze.mp hb').2]
  have hm : g.mentionsEndMarker = true → g'.mentionsEndMarker = true := mentionsEndMarker_of_ids h
  have hsub (s : Symbol) : g.solveFirst.value.table.setOf s ⊆ g'.solveFirst.value.table.setOf s :=
    (coveredOn_univ h hr).solveFirst (Set.mem_univ s)
  have hle : g.solveFirst.value.table ≤ g'.solveFirst.value.table := by
    rw [FirstTable.le_iff]
    intro s
    rw [isSome_solveFirst, isSome_solveFirst]
    exact ⟨listed_of_registry_eq hr hm, hsub s⟩
  refine ⟨?_, hle, FirstTable.firstOf_mono hsub⟩
  intro s hs
  exact mem_keys_solveFirst.mpr (key_of_registry_eq hr hm (mem_keys_solveFirst.mp hs))

/-- `S → S a` alone, so that `S` starts nothing. -/
def repetitionOpen : Grammar :=
  { repetition with
    productions := [⟨[⟨1, .nonterminal⟩], [⟨1, .nonterminal⟩, ⟨2, .terminal⟩]⟩] }

/-- `repetition` with the end marker behind `S`. -/
def repetitionMarked : Grammar :=
  { repetition with
    productions :=
      ⟨[⟨1, .nonterminal⟩], [⟨1, .nonterminal⟩, .endMarker]⟩ :: repetition.productions }

/-- The first grammar finds nothing for `S` and does not know the end marker. The second
one can let `S` vanish, and so finds `a` and the end marker there. -/
theorem analyze_mono_repetition :
    repetitionMarked.registry = repetitionOpen.registry ∧
      (∀ p ∈ repetitionOpen.productions, ∃ q ∈ repetitionMarked.productions, q.ids = p.ids) ∧
      repetitionOpen.analyze.value = .ok ⟨repetitionOpen, repetitionOpen.solveFirst.value⟩ ∧
      repetitionMarked.analyze.value = .ok ⟨repetitionMarked, repetitionMarked.solveFirst.value⟩ ∧
      repetitionOpen.solveFirst.value.table.find? .endMarker = none ∧
      repetitionOpen.solveFirst.value.rounds = 1 ∧
      repetitionMarked.solveFirst.value.rounds = 3 ∧
      (⟨1, .nonterminal⟩ : Symbol) ∈ repetitionMarked.solveFirst.value.table.keys ∧
      repetitionOpen.solveFirst.value.table.firstOf [⟨1, .nonterminal⟩, .endMarker] ⊆
        repetitionMarked.solveFirst.value.table.firstOf [⟨1, .nonterminal⟩, .endMarker] := by
  have ha : repetitionOpen.analyze.value = .ok ⟨repetitionOpen, repetitionOpen.solveFirst.value⟩ :=
    value_analyze.mpr ⟨by decide, rfl⟩
  have ha' : repetitionMarked.analyze.value =
      .ok ⟨repetitionMarked, repetitionMarked.solveFirst.value⟩ :=
    value_analyze.mpr ⟨by decide, rfl⟩
  have hr : repetitionMarked.registry = repetitionOpen.registry := rfl
  have hp : ∀ p ∈ repetitionOpen.productions, ∃ q ∈ repetitionMarked.productions,
      q.ids = p.ids := by decide
  obtain ⟨hkeys, _, hstrings⟩ := analyze_mono hr hp ha ha'
  exact ⟨hr, hp, ha, ha', by decide, by decide, by decide, hkeys _ (by decide), hstrings _⟩

end Lookahead.Grammar
