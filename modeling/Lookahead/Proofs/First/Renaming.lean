import Lookahead.Proofs.First.Least
import Lookahead.Proofs.Grammar.Assembled
import Lookahead.Proofs.Registry.Renamed

/-!
# Renamed grammars

Two grammars are renamed into each other when their registries are and their
productions correspond, in whatever order and however often each is listed.
Tables correspond when they hold corresponding members under corresponding
symbols. The first tables do, a round takes corresponding tables to
corresponding tables, and so all tables after as many rounds correspond. The
rounds come to rest at the same time, and the solutions correspond.
-/
namespace Lookahead

def Production.rename (f : ℤ → ℤ) (p : Production) : Production :=
  ⟨p.lhs.map (·.rename f), p.rhs.map (·.rename f)⟩

/-- The renamed productions of one grammar are those of the other, as sets. -/
structure Grammar.Renamed (f : ℤ → ℤ) (g g' : Grammar) : Prop where
  registry : g.registry.Renamed f g'.registry
  productions : ∀ i, i ∈ (g.productions.map fun p => (p.rename f).ids) ↔
    i ∈ g'.productions.map Production.ids

/-- Up to the identity `bound`, renamed symbols hold renamed members. -/
def FirstTable.Corresponds (f : ℤ → ℤ) (bound : ℤ) (t t' : FirstTable) : Prop :=
  ∀ s a : Symbol, s.id ≤ bound → a.id ≤ bound →
    (a.rename f ∈ t'.setOf (s.rename f) ↔ a ∈ t.setOf s)

/-- The walks along a string and its renamed form agree. -/
theorem Registry.Renamed.mem_firstOf_iff {f : ℤ → ℤ} {r r' : Registry} {t t' : FirstTable}
    {a : Symbol} {α : List Symbol} (hf : r.Renamed f r') (hr : r.Issued) (hr' : r'.Issued)
    (ht : t.Corresponds f r.size t') (hα : ∀ s ∈ α, s.id ≤ r.size) (ha : a.id ≤ r.size) :
    a.rename f ∈ t'.firstOf (α.map (·.rename f)) ↔ a ∈ t.firstOf α := by
  have h0 : f a.id = 0 ↔ a.id = 0 := hf.eq_reserved hr hr' ha le_rfl
  have hε (s : Symbol) (hs : s.id ≤ r.size) :
      .epsilon ∈ t'.setOf (s.rename f) ↔ .epsilon ∈ t.setOf s := by
    have hid : (Symbol.epsilon.rename f).id = 0 := hf.reserved 0 le_rfl
    rw [← ht s .epsilon hs (by simp)]
    exact SymbolSet.mem_congr hid.symm
  induction α with
  | nil => simpa using h0
  | cons s α ih =>
      have hs := hα s List.mem_cons_self
      have hrest : a.rename f ∈ t'.firstOf (α.map (·.rename f)) ↔ a ∈ t.firstOf α :=
        ih fun k hk => hα k (List.mem_cons_of_mem s hk)
      rw [List.map_cons, FirstTable.mem_firstOf_cons, FirstTable.mem_firstOf_cons, ht s a hs ha,
        hε s hs, hrest, Symbol.rename_id, Ne, h0]

namespace Grammar

variable {f : ℤ → ℤ} {g g' : Grammar} {t t' : FirstTable} {s a : Symbol} {p q : Production}
  {j k : ℕ}

/-- A production that rewrites a symbol is one of the grammar. -/
theorem exists_rewrites_iff {P : Production → Prop} :
    (∃ p, g.Rewrites s p ∧ P p) ↔ ∃ p ∈ g.productions, g.Rewrites s p ∧ P p := by
  constructor
  · intro hp
    obtain ⟨p, hr, hP⟩ := hp
    exact ⟨p, (mem_productionsOf.mp hr.2).1, hr, hP⟩
  · intro hp
    obtain ⟨p, _, hr⟩ := hp
    exact ⟨p, hr⟩

namespace Renamed

variable (h : g.Renamed f g') (hg : g.Assembled) (hg' : g'.Assembled)
include h

/-- Something holds of some production if it does, renamed, of some production. -/
theorem exists_production_iff {P P' : Production → Prop}
    (hP : ∀ p ∈ g.productions, ∀ q ∈ g'.productions, q.ids = (p.rename f).ids → (P' q ↔ P p)) :
    (∃ q ∈ g'.productions, P' q) ↔ ∃ p ∈ g.productions, P p := by
  constructor
  · intro hq
    obtain ⟨q, hq, hPq⟩ := hq
    have hmem : q.ids ∈ g'.productions.map Production.ids := List.mem_map.mpr ⟨q, hq, rfl⟩
    obtain ⟨p, hp, he⟩ := List.mem_map.mp ((h.productions q.ids).mpr hmem)
    exact ⟨p, hp, (hP p hp q hq he.symm).mp hPq⟩
  · intro hp
    obtain ⟨p, hp, hPp⟩ := hp
    have hmem : (p.rename f).ids ∈ g.productions.map fun p => (p.rename f).ids :=
      List.mem_map.mpr ⟨p, hp, rfl⟩
    obtain ⟨q, hq, he⟩ := List.mem_map.mp ((h.productions (p.rename f).ids).mp hmem)
    exact ⟨q, hq, (hP p hp q hq he).mpr hPp⟩

include hg

/-- Every listed symbol is the renamed form of one. -/
theorem exists_listed (hs : g'.Listed s) :
    ∃ k : Symbol, k.id ≤ g.registry.size ∧ f k.id = s.id := by
  have hissued {b : Symbol} (hb : b ∈ g'.registry.symbols) (he : b.id = s.id) :
      ∃ k : Symbol, k.id ≤ g.registry.size ∧ f k.id = s.id := by
    obtain ⟨k, hk, rfl⟩ := h.registry.bijOn.surjOn hb
    exact ⟨k, (Registry.id_of_mem_symbols hg.issued hk).2, he⟩
  have hreserved (h0 : s.id ≤ 0) : ∃ k : Symbol, k.id ≤ g.registry.size ∧ f k.id = s.id :=
    ⟨s, by omega, h.registry.reserved s.id h0⟩
  rcases hs with h0 | hl | hn
  · exact hreserved (by omega)
  · rcases hl with ⟨b, hb, he⟩ | ⟨_, he⟩
    · exact hissued (.inl hb) he
    · apply hreserved
      rw [he, Symbol.endMarker_id]
      omega
  · obtain ⟨n, hn, he⟩ := hn
    exact hissued (.inr hn) he

include hg'

theorem nonterminal_iff (hs : s.id ≤ g.registry.size) :
    g'.Nonterminal (s.rename f) ↔ g.Nonterminal s :=
  h.registry.exists_nonterminal hg.issued hg'.issued hs

theorem endMarker_mem_iff (hp : p ∈ g.productions) :
    Symbol.endMarker.id ∈ (p.rename f).rhs.map (·.id) ↔
      Symbol.endMarker.id ∈ p.rhs.map (·.id) := by
  simp only [Production.rename, List.mem_map, List.map_map]
  apply exists_congr
  intro s
  apply and_congr_right
  intro hs
  have hle := hg.id_le hp (List.mem_append_right p.lhs hs)
  exact h.registry.eq_reserved hg.issued hg'.issued hle (by decide)

theorem mentionsEndMarker_iff : g'.mentionsEndMarker = true ↔ g.mentionsEndMarker = true := by
  rw [mentionsEndMarker_iff_ids, mentionsEndMarker_iff_ids]
  apply h.exists_production_iff
  intro p hp q _ he
  have hr : q.rhs.map (·.id) = (p.rename f).rhs.map (·.id) := congrArg Prod.snd he
  rw [hr]
  exact h.endMarker_mem_iff hg hg' hp

theorem letter_iff (hs : s.id ≤ g.registry.size) : g'.Letter (s.rename f) ↔ g.Letter s := by
  apply or_congr
  · exact h.registry.exists_terminal hg.issued hg'.issued hs
  · apply and_congr (h.mentionsEndMarker_iff hg hg')
    exact h.registry.eq_reserved hg.issued hg'.issued hs (by decide)

theorem lhs_iff (hp : p ∈ g.productions) (hs : s.id ≤ g.registry.size) :
    (p.rename f).lhs.map (·.id) = [f s.id] ↔ p.lhs.map (·.id) = [s.id] := by
  simp only [Production.rename, List.map_map, List.map_eq_singleton_iff]
  apply exists_congr
  intro k
  apply and_congr_right
  intro hk
  have hle : k.id ≤ g.registry.size := hg.id_le hp (by simp [hk])
  exact h.registry.inj hg.issued hg'.issued hle hs

/-- A production and its renamed form rewrite a symbol and its renamed form. -/
theorem rewrites_iff (hp : p ∈ g.productions) (hq : q ∈ g'.productions)
    (he : q.ids = (p.rename f).ids) (hs : s.id ≤ g.registry.size) :
    g'.Rewrites (s.rename f) q ↔ g.Rewrites s p := by
  have hl : q.lhs.map (·.id) = (p.rename f).lhs.map (·.id) := congrArg Prod.fst he
  apply and_congr (h.nonterminal_iff hg hg' hs)
  rw [mem_productionsOf_iff_ids, mem_productionsOf_iff_ids, hl, Symbol.rename_id,
    h.lhs_iff hg hg' hp hs]
  exact and_congr_left fun _ => iff_of_true hq hp

section Rounds

theorem corresponds_initialTable :
    g.initialTable.Corresponds f g.registry.size g'.initialTable := by
  intro s a hs ha
  rw [mem_setOf_initialTable, mem_setOf_initialTable, Symbol.rename_id, Symbol.rename_id,
    h.registry.inj hg.issued hg'.issued ha hs, h.registry.eq_reserved hg.issued hg'.issued hs le_rfl,
    h.letter_iff hg hg' hs]

/-- A round takes corresponding tables to corresponding tables. -/
theorem corresponds_nextTable (ht : t.Corresponds f g.registry.size t') :
    (g.nextTable t).Corresponds f g.registry.size (g'.nextTable t') := by
  intro s a hs ha
  have hrhs (p q : Production) (hp : p ∈ g.productions) (he : q.ids = (p.rename f).ids) :
      a.rename f ∈ t'.firstOf q.rhs ↔ a ∈ t.firstOf p.rhs := by
    have hr : q.rhs.map (·.id) = (p.rename f).rhs.map (·.id) := congrArg Prod.snd he
    rw [t'.firstOf_congr hr]
    apply h.registry.mem_firstOf_iff hg.issued hg'.issued ht _ ha
    intro k hk
    exact hg.id_le hp (List.mem_append_right p.lhs hk)
  rw [mem_setOf_nextTable, mem_setOf_nextTable, ht s a hs ha]
  apply or_congr_right
  simp only [exists_rewrites_iff]
  apply h.exists_production_iff
  intro p hp q hq he
  rw [h.rewrites_iff hg hg' hp hq he hs, hrhs p q hp he]

theorem corresponds_tableAfter (k : ℕ) :
    (g.tableAfter k).Corresponds f g.registry.size (g'.tableAfter k) := by
  induction k with
  | zero => exact h.corresponds_initialTable hg hg'
  | succ k ih =>
      rw [tableAfter_succ, tableAfter_succ]
      exact h.corresponds_nextTable hg hg' ih

theorem listed_iff (hs : s.id ≤ g.registry.size) : g'.Listed (s.rename f) ↔ g.Listed s := by
  apply or_congr
  · exact h.registry.eq_reserved hg.issued hg'.issued hs le_rfl
  · exact or_congr (h.letter_iff hg hg' hs) (h.nonterminal_iff hg hg' hs)

theorem listed_iff_exists : g'.Listed s ↔ ∃ k, g.Listed k ∧ f k.id = s.id := by
  constructor
  · intro hs
    obtain ⟨k, hk, he⟩ := h.exists_listed hg hs
    have hk' : g'.Listed (k.rename f) := (listed_congr he).mpr hs
    exact ⟨k, (h.listed_iff hg hg' hk).mp hk', he⟩
  · intro hs
    obtain ⟨k, hk, he⟩ := hs
    have hk' := (h.listed_iff hg hg' (hg.id_le_of_listed hk)).mpr hk
    exact (listed_congr he).mp hk'

/-- After every round, a renamed symbol holds the renamed members. -/
theorem mem_setOf_tableAfter_rename (hs : s.id ≤ g.registry.size) :
    a ∈ (g'.tableAfter k).setOf (s.rename f) ↔
      ∃ c ∈ (g.tableAfter k).setOf s, f c.id = a.id := by
  have hcorr := h.corresponds_tableAfter hg hg' k
  constructor
  · intro hm
    obtain ⟨c, hc, he⟩ := h.exists_listed hg (listed_of_mem_setOf_tableAfter hm).2
    refine ⟨c, (hcorr s c hs hc).mp ?_, he⟩
    exact (SymbolSet.mem_congr he).mpr hm
  · intro hm
    obtain ⟨c, hm, he⟩ := hm
    have hc := hg.id_le_of_listed (listed_of_mem_setOf_tableAfter hm).2
    apply (SymbolSet.mem_congr (s := c.rename f) he).mp
    exact (hcorr s c hs hc).mpr hm

/-- The tables of the two grammars grow in the same rounds. -/
theorem tableAfter_le_iff :
    g'.tableAfter j ≤ g'.tableAfter k ↔ g.tableAfter j ≤ g.tableAfter k := by
  rw [tableAfter_le_tableAfter_iff, tableAfter_le_tableAfter_iff]
  constructor
  · intro hle s a hm
    obtain ⟨hs, ha⟩ := listed_of_mem_setOf_tableAfter hm
    have hs := hg.id_le_of_listed hs
    have ha := hg.id_le_of_listed ha
    rw [← h.corresponds_tableAfter hg hg' _ s a hs ha] at hm ⊢
    exact hle _ _ hm
  · intro hle s a hm
    obtain ⟨b, hb, he⟩ := h.exists_listed hg (listed_of_mem_setOf_tableAfter hm).1
    have hbs : (b.rename f).id = s.id := he
    rw [← FirstTable.setOf_congr _ hbs, h.mem_setOf_tableAfter_rename hg hg' hb] at hm ⊢
    obtain ⟨c, hc, hca⟩ := hm
    exact ⟨c, hle b c hc, hca⟩

theorem rounds_eq : g'.solveFirst.value.rounds = g.solveFirst.value.rounds := by
  apply rounds_eq_of_same_iff
  intro k
  rw [FirstTable.same_iff_le, FirstTable.same_iff_le, h.tableAfter_le_iff hg hg',
    h.tableAfter_le_iff hg hg']

end Rounds

end Renamed

/-- What an analysis finds moves along with the symbols, and takes as many rounds:
identities, the order of productions and their repetition play no part. -/
theorem analyze_renamed {b b' : Analysis} (hg : g.Assembled) (hg' : g'.Assembled)
    (hb : g.analyze.value = .ok b) (hb' : g'.analyze.value = .ok b') (h : g.Renamed f g') :
    (∀ s, (b'.firstSet? s).isSome ↔ ∃ k, (b.firstSet? k).isSome ∧ f k.id = s.id) ∧
      (∀ s X, b.firstSet? s = some X → ∃ X', b'.firstSet? (s.rename f) = some X' ∧
        ∀ a, a ∈ X' ↔ ∃ c ∈ X, f c.id = a.id) ∧
      b'.first.rounds = b.first.rounds := by
  rw [(value_analyze.mp hb).2, (value_analyze.mp hb').2]
  refine ⟨?_, ?_, h.rounds_eq hg hg'⟩
  · intro s
    have hlisted : g'.Listed s ↔ ∃ k, g.Listed k ∧ f k.id = s.id := h.listed_iff_exists hg hg'
    simp only [← isSome_solveFirst] at hlisted
    exact hlisted
  · intro s X (hX : g.solveFirst.value.table.find? s = some X)
    have hsome : (g.solveFirst.value.table.find? s).isSome := by rw [hX, Option.isSome_some]
    have hs : g.Listed s := isSome_solveFirst.mp hsome
    have hle := hg.id_le_of_listed hs
    have hs' : g'.Listed (s.rename f) := (h.listed_iff hg hg' hle).mpr hs
    refine ⟨_, find?_solveFirst hs', ?_⟩
    intro a
    rw [← FirstTable.setOf_of_find? hX, solveFirst_table, solveFirst_table, h.rounds_eq hg hg']
    exact h.mem_setOf_tableAfter_rename hg hg' hle

/-- `repetition` with the terminal issued first, the productions the other way
round and one of them twice. -/
def repetitionSwapped : Grammar where
  registry := (Registry.ofList [("a", .terminal), ("S", .nonterminal)]).value
  productions :=
    [.vanishing ⟨2, .nonterminal⟩, ⟨[⟨2, .nonterminal⟩], [⟨2, .nonterminal⟩, ⟨1, .terminal⟩]⟩,
      .vanishing ⟨2, .nonterminal⟩]
  start := ⟨2, .nonterminal⟩

theorem assembled_repetitionSwapped : repetitionSwapped.Assembled :=
  ⟨repetitionSwapped.registry, repetitionSwapped.productions, repetitionSwapped.start,
    Registry.issued_ofList _, rfl⟩

theorem renamed_repetition : repetition.Renamed (Equiv.swap 1 2) repetitionSwapped where
  registry :=
    { reserved := fun i hi => Equiv.swap_apply_of_ne_of_ne (by omega) (by omega)
      bijOn := by
        have ht : repetition.registry.terminals = [⟨2, .terminal⟩] := by decide
        have hn : repetition.registry.nonterminals = [⟨1, .nonterminal⟩] := by decide
        have ht' : repetitionSwapped.registry.terminals = [⟨1, .terminal⟩] := by decide
        have hn' : repetitionSwapped.registry.nonterminals = [⟨2, .nonterminal⟩] := by decide
        simp only [Registry.symbols, ht, hn, ht', hn', List.mem_singleton]
        refine ⟨?_, ?_, ?_⟩
        · intro s hs
          rcases hs with rfl | rfl
          · exact .inl rfl
          · exact .inr rfl
        · intro s hs t ht
          rcases hs with rfl | rfl <;> rcases ht with rfl | rfl <;> decide
        · intro s hs
          rcases hs with rfl | rfl
          · exact ⟨_, .inl rfl, rfl⟩
          · exact ⟨_, .inr rfl, rfl⟩ }
  productions i := by
    have h : (repetition.productions.map fun p => (p.rename (Equiv.swap 1 2)).ids) =
        [([2], [2, 1]), ([2], [0])] := by decide
    have h' : repetitionSwapped.productions.map Production.ids =
        [([2], [0]), ([2], [2, 1]), ([2], [0])] := by decide
    rw [h, h']
    simp only [List.mem_cons, List.not_mem_nil]
    tauto

/-- The start of `repetition` moves from 1 to 2, and `a` from 2 to 1. -/
theorem analyze_renamed_repetition :
    repetition.Assembled ∧ repetitionSwapped.Assembled ∧
      repetition.analyze.value = .ok ⟨repetition, repetition.solveFirst.value⟩ ∧
      repetitionSwapped.analyze.value =
        .ok ⟨repetitionSwapped, repetitionSwapped.solveFirst.value⟩ ∧
      repetition.Renamed (Equiv.swap 1 2) repetitionSwapped ∧
      repetitionSwapped.solveFirst.value.rounds = repetition.solveFirst.value.rounds ∧
      (repetitionSwapped.solveFirst.value.table.find? ⟨2, .nonterminal⟩).isSome := by
  have ha : repetition.analyze.value = .ok ⟨repetition, repetition.solveFirst.value⟩ :=
    value_analyze.mpr ⟨by decide, rfl⟩
  have ha' : repetitionSwapped.analyze.value =
      .ok ⟨repetitionSwapped, repetitionSwapped.solveFirst.value⟩ :=
    value_analyze.mpr ⟨by decide, rfl⟩
  obtain ⟨hkeys, _, hrounds⟩ :=
    analyze_renamed assembled_repetition assembled_repetitionSwapped ha ha' renamed_repetition
  have hS := (hkeys ⟨2, .nonterminal⟩).mpr ⟨⟨1, .nonterminal⟩, by decide, rfl⟩
  exact ⟨assembled_repetition, assembled_repetitionSwapped, ha, ha', renamed_repetition, hrounds,
    hS⟩

end Grammar

end Lookahead
