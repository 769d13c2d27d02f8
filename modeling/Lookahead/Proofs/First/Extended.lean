import Lookahead.Proofs.First.Covered
import Lookahead.Proofs.Grammar.Accepted
import Lookahead.Proofs.Registry.Growth

/-!
# Grammars over a growing registry

A registry can go on issuing names after a grammar was put together over it. No
production mentions what is issued then, and every answer about an earlier
identity stays. So the grammar is accepted over the later registry as well, and on
the earlier identities each of the two covers the other. The sets of new symbols
never change, so the rounds end when they did (`rounds_withRegistry`), and the
later table differs by the new symbols only.
-/
namespace Lookahead

namespace Registry

variable {r r' : Registry} {s : Symbol} (h : r.Keeps r') (hr : r.Issued) (hr' : r'.Issued)
include h hr hr'

/-- The earlier symbols are the later ones with an earlier identity. -/
theorem Keeps.mem_symbols_iff : s ∈ r.symbols ↔ s ∈ r'.symbols ∧ s.id ≤ r.size := by
  constructor
  · intro hs
    have hle := (id_of_mem_symbols hr hs).2
    rw [hr.mem_symbols_iff_contains, ← h.contains s hle] at hs
    exact ⟨hr'.mem_symbols_iff_contains.mpr hs, hle⟩
  · intro hs
    rw [hr'.mem_symbols_iff_contains, h.contains s hs.2] at hs
    exact hr.mem_symbols_iff_contains.mpr hs.1

theorem Keeps.size_lt (hs : s ∈ r'.symbols) (hnew : s ∉ r.symbols) : r.size < s.id := by
  by_contra hle
  exact hnew ((h.mem_symbols_iff hr hr').mpr ⟨hs, Int.not_lt.mp hle⟩)

/-- An earlier identity belongs to the symbol that it belonged to. -/
theorem Keeps.exists_symbol {kind : Kind} (hs : s.id ≤ r.size) :
    (∃ t ∈ r'.symbols, t.kind = kind ∧ t.id = s.id) ↔
      ∃ t ∈ r.symbols, t.kind = kind ∧ t.id = s.id := by
  apply exists_congr
  intro t
  rw [h.mem_symbols_iff hr hr']
  constructor
  · intro ht
    exact ⟨⟨ht.1, ht.2.2 ▸ hs⟩, ht.2⟩
  · intro ht
    exact ⟨ht.1.1, ht.2⟩

theorem Keeps.exists_terminal (hs : s.id ≤ r.size) :
    (∃ t ∈ r'.terminals, t.id = s.id) ↔ ∃ t ∈ r.terminals, t.id = s.id := by
  simp only [mem_terminals_iff_symbols, and_assoc]
  exact h.exists_symbol hr hr' hs

theorem Keeps.exists_nonterminal (hs : s.id ≤ r.size) :
    (∃ n ∈ r'.nonterminals, n.id = s.id) ↔ ∃ n ∈ r.nonterminals, n.id = s.id := by
  simp only [mem_nonterminals_iff_symbols, and_assoc]
  exact h.exists_symbol hr hr' hs

end Registry

/-- What the later analysis adds to the earlier one is what the registry has issued in
between: terminals that start with themselves, and nonterminals that start nothing. -/
structure Analysis.ExtendedBy (r r' : Registry) (b b' : Analysis) : Prop where
  rounds : b'.first.rounds = b.first.rounds
  kept : ∀ s, (b.firstSet? s).isSome → b'.firstSet? s = b.firstSet? s
  keys : ∀ s, s ∈ b'.first.table.keys ↔ s ∈ b.first.table.keys ∨ s ∈ r'.symbols \ r.symbols
  terminal : ∀ t ∈ r'.terminals, t ∉ r.symbols → b'.firstSet? t = some (.singleton t)
  nonterminal : ∀ n ∈ r'.nonterminals, n ∉ r.symbols → b'.firstSet? n = some ∅

namespace Grammar

variable {g : Grammar} {r r' : Registry} {productions : List Production} {start s a : Symbol}
  {p : Production} {j k : ℕ}

/-- The same productions and start over another registry. -/
def withRegistry (g : Grammar) (r : Registry) : Grammar := { g with registry := r }

@[simp] theorem withRegistry_registry (g : Grammar) (r : Registry) :
    (g.withRegistry r).registry = r := rfl

@[simp] theorem withRegistry_productionsOf (g : Grammar) (r : Registry) (s : Symbol) :
    (g.withRegistry r).productionsOf s = g.productionsOf s := rfl

@[simp] theorem withRegistry_mentionsEndMarker (g : Grammar) (r : Registry) :
    (g.withRegistry r).mentionsEndMarker = g.mentionsEndMarker := rfl

section Accepted

variable (h : r.Keeps r') (hr : r.Issued)
include h hr

theorem Sound.keeps (hp : Sound r p) : Sound r' p := by
  refine ⟨hp.1, hp.2.1, ?_⟩
  intro s hs
  have hknown := hp.2.2 s hs
  rw [h.contains s (hr.id_le_of_contains hknown)]
  exact hknown

theorem isNonterminal_keeps (hs : r.contains s = true) : r'.isNonterminal s = r.isNonterminal s :=
  h.isNonterminal s (hr.id_le_of_contains hs)

theorem fault?_keeps (hf : fault? r productions start = none) :
    fault? r' productions start = none := by
  rw [fault?_eq_none, startFault?_eq_none] at hf ⊢
  have hstart := (Registry.isNonterminal_iff.mp hf.2).2
  rw [isNonterminal_keeps h hr hstart]
  exact ⟨fun p hp => (hf.1 p hp).keeps h hr, hf.2⟩

end Accepted

section Rounds

variable (hg : g.Assembled) (h : g.registry.Keeps r') (hr' : r'.Issued)

section Idle

include hg

theorem Assembled.id_le_of_mem_rhs {s k : Symbol} (hp : p ∈ g.productionsOf s) (hk : k ∈ p.rhs) :
    k.id ≤ g.registry.size :=
  hg.id_le (mem_productionsOf.mp hp).1 (List.mem_append_right p.lhs hk)

/-- No production expands an identity that was not issued. -/
theorem Assembled.productionsOf_eq_nil (hs : g.registry.size < s.id) : g.productionsOf s = [] := by
  rw [List.eq_nil_iff_forall_not_mem]
  intro p hp
  obtain ⟨hmem, n, hlhs, hid⟩ := mem_productionsOf.mp hp
  have hn : n ∈ p.lhs ++ p.rhs := List.mem_append_left _ (by simp [hlhs])
  have hle := hg.id_le hmem hn
  omega

include h

theorem isContextFree_withRegistry : (g.withRegistry r').isContextFree = g.isContextFree := by
  rw [Bool.eq_iff_iff, isContextFree_iff, isContextFree_iff]
  refine forall₂_congr fun p hp => exists_congr fun n => and_congr_right fun hlhs => ?_
  have hn : n ∈ p.lhs ++ p.rhs := List.mem_append_left _ (by simp [hlhs])
  have hkept : r'.isNonterminal n = g.registry.isNonterminal n :=
    isNonterminal_keeps h hg.issued (hg.contains hp hn)
  exact Bool.eq_iff_iff.mp hkept

end Idle

include hg h hr'

theorem nonterminal_withRegistry (hs : s.id ≤ g.registry.size) :
    (g.withRegistry r').Nonterminal s ↔ g.Nonterminal s :=
  h.exists_nonterminal hg.issued hr' hs

theorem letter_withRegistry (hs : s.id ≤ g.registry.size) :
    (g.withRegistry r').Letter s ↔ g.Letter s :=
  or_congr_left (h.exists_terminal hg.issued hr' hs)

theorem listed_withRegistry (hs : s.id ≤ g.registry.size) :
    (g.withRegistry r').Listed s ↔ g.Listed s :=
  or_congr_right <|
    or_congr (letter_withRegistry hg h hr' hs) (nonterminal_withRegistry hg h hr' hs)

theorem coveredOn_withRegistry :
    CoveredOn {s | s.id ≤ g.registry.size} g (g.withRegistry r') where
  letter _ hs := (letter_withRegistry hg h hr' hs).mpr
  rewrites _ hs p hp := ⟨p, ⟨(nonterminal_withRegistry hg h hr' hs).mpr hp.1, hp.2⟩, rfl⟩
  closed _ _ _ hp _ hk := hg.id_le_of_mem_rhs hp.2 hk

theorem withRegistry_coveredOn :
    CoveredOn {s | s.id ≤ g.registry.size} (g.withRegistry r') g where
  letter _ hs := (letter_withRegistry hg h hr' hs).mp
  rewrites _ hs p hp := ⟨p, ⟨(nonterminal_withRegistry hg h hr' hs).mp hp.1, hp.2⟩, rfl⟩
  closed _ _ _ hp _ hk := hg.id_le_of_mem_rhs hp.2 hk

/-- Every round leaves the same on the earlier identities. -/
theorem mem_setOf_tableAfter_withRegistry (hs : s.id ≤ g.registry.size) :
    a ∈ ((g.withRegistry r').tableAfter k).setOf s ↔ a ∈ (g.tableAfter k).setOf s :=
  ⟨(withRegistry_coveredOn hg h hr').tableAfter k s hs a,
    (coveredOn_withRegistry hg h hr').tableAfter k s hs a⟩

/-- A later identity is idle in both grammars, so it holds no table back. -/
theorem same_tableAfter_withRegistry :
    ((g.withRegistry r').tableAfter j).same ((g.withRegistry r').tableAfter k) = true ↔
      (g.tableAfter j).same (g.tableAfter k) = true := by
  rw [same_tableAfter_iff, same_tableAfter_iff]
  refine forall₂_congr fun s a => ?_
  rcases Int.lt_or_le g.registry.size s.id with hs | hs
  · have hnil := hg.productionsOf_eq_nil hs
    have hidle : ∀ p, ¬ g.Rewrites s p := not_rewrites_of_eq_nil hnil
    have hnil' : (g.withRegistry r').productionsOf s = [] :=
      (g.withRegistry_productionsOf r' s).trans hnil
    have hidle' : ∀ p, ¬ (g.withRegistry r').Rewrites s p := not_rewrites_of_eq_nil hnil'
    simp only [mem_setOf_tableAfter_of_not_rewrites hidle,
      mem_setOf_tableAfter_of_not_rewrites hidle']
  · simp only [mem_setOf_tableAfter_withRegistry hg h hr' hs]

theorem rounds_withRegistry :
    (g.withRegistry r').solveFirst.value.rounds = g.solveFirst.value.rounds :=
  rounds_eq_of_same_iff fun _ => (same_tableAfter_withRegistry hg h hr').symm

theorem find?_solveFirst_withRegistry (hs : s.id ≤ g.registry.size) :
    (g.withRegistry r').solveFirst.value.table.find? s = g.solveFirst.value.table.find? s := by
  have hlisted := listed_withRegistry hg h hr' hs
  have hcovered := coveredOn_withRegistry hg h hr'
  exact hcovered.find?_solveFirst_eq (withRegistry_coveredOn hg h hr') hs hs hlisted

end Rounds

section Keys

theorem key_iff_symbols :
    g.Key s ↔ s ∈ g.registry.symbols ∨ s = .epsilon ∨
      (g.mentionsEndMarker = true ∧ s = .endMarker) := by
  change _ ↔ (s ∈ g.registry.terminals ∨ s ∈ g.registry.nonterminals) ∨ _
  unfold Key Member
  tauto

theorem key_withRegistry (h : g.registry.symbols ⊆ r'.symbols) :
    (g.withRegistry r').Key s ↔ g.Key s ∨ s ∈ r'.symbols \ g.registry.symbols := by
  have hs : s ∈ g.registry.symbols → s ∈ r'.symbols := fun hs => h hs
  rw [key_iff_symbols, key_iff_symbols, withRegistry_registry, withRegistry_mentionsEndMarker,
    Set.mem_sdiff]
  tauto

end Keys

theorem extendedBy_withRegistry (hg : g.Assembled) (h : g.registry.Keeps r') (hr' : r'.Issued) :
    Analysis.ExtendedBy g.registry r' ⟨g, g.solveFirst.value⟩
      ⟨g.withRegistry r', (g.withRegistry r').solveFirst.value⟩ where
  rounds := rounds_withRegistry hg h hr'
  kept s hs := by
    have hle := hg.id_le_of_listed (isSome_solveFirst.mp hs)
    exact find?_solveFirst_withRegistry hg h hr' hle
  keys s := by
    have hsub : g.registry.symbols ⊆ r'.symbols := fun k hk =>
      ((h.mem_symbols_iff hg.issued hr').mp hk).1
    exact mem_keys_solveFirst.trans <|
      (key_withRegistry hsub).trans (or_congr_left mem_keys_solveFirst.symm)
  terminal t ht _ := find?_solveFirst_of_member (g := g.withRegistry r') (.inr (.inl ht))
  nonterminal n hn hnew := by
    apply find?_solveFirst_of_idle (g := g.withRegistry r') hn
    rw [withRegistry_productionsOf]
    exact hg.productionsOf_eq_nil (h.size_lt hg.issued hr' (.inr hn) hnew)

/-- Whatever a registry issues later, a grammar over it is accepted again, and its
analysis finds what it found in as many rounds. -/
theorem assemble_issueAll (hr : r.Issued) (hg : (assemble r productions start).value = .ok g)
    (names : List (String × Kind)) :
    ∃ g', (assemble (r.issueAll names).value productions start).value = .ok g' ∧
      g'.isContextFree = g.isContextFree ∧
      ∀ b, g.analyze.value = .ok b →
        ∃ b', g'.analyze.value = .ok b' ∧ b.ExtendedBy r (r.issueAll names).value b' := by
  have hassembled : g.Assembled := ⟨r, productions, start, hr, hg⟩
  obtain ⟨hf, rfl⟩ := value_assemble.mp hg
  have hkeeps : r.Keeps (r.issueAll names).value := hr.keeps_issueAll names
  have hfree := isContextFree_withRegistry hassembled hkeeps
  refine ⟨_, value_assemble.mpr ⟨fault?_keeps hkeeps hr hf, rfl⟩, hfree, ?_⟩
  intro b hb
  obtain ⟨hc, rfl⟩ := value_analyze.mp hb
  refine ⟨_, value_analyze.mpr ⟨hfree.trans hc, rfl⟩, ?_⟩
  exact extendedBy_withRegistry hassembled hkeeps (hr.issueAll names)

/-- The name of a terminal of `repetition` as a nonterminal, a new terminal, and a name
that `repetition` knows. -/
def laterNames : List (String × Kind) := [("a", .nonterminal), ("b", .terminal), ("S", .nonterminal)]

/-- Two symbols are new. -/
theorem assemble_issueAll_repetition :
    repetition.registry.Issued ∧
      (assemble repetition.registry repetition.productions repetition.start).value =
        .ok repetition ∧
      repetition.analyze.value = .ok ⟨repetition, repetition.solveFirst.value⟩ ∧
      ∃ (g' : Grammar) (b' : Analysis),
        (assemble (repetition.registry.issueAll laterNames).value repetition.productions
          repetition.start).value = .ok g' ∧
        g'.analyze.value = .ok b' ∧
        b'.first.rounds = repetition.solveFirst.value.rounds ∧
        b'.firstSet? ⟨2, .terminal⟩ = some (.singleton ⟨2, .terminal⟩) ∧
        b'.firstSet? ⟨3, .nonterminal⟩ = some ∅ ∧
        b'.firstSet? ⟨4, .terminal⟩ = some (.singleton ⟨4, .terminal⟩) := by
  have hr : repetition.registry.Issued := Registry.issued_ofList _
  have hg : (assemble repetition.registry repetition.productions repetition.start).value =
      .ok repetition := rfl
  have hb : repetition.analyze.value = .ok ⟨repetition, repetition.solveFirst.value⟩ :=
    value_analyze.mpr ⟨by decide, rfl⟩
  have hnew (i : ℤ) (kind : Kind) (hi : 2 < i) : ⟨i, kind⟩ ∉ repetition.registry.symbols := by
    intro hs
    have hle : i ≤ 2 := (Registry.id_of_mem_symbols hr hs).2
    omega
  obtain ⟨g', hg', _, hextended⟩ := assemble_issueAll hr hg laterNames
  obtain ⟨b', hb', hext⟩ := hextended _ hb
  refine ⟨hr, hg, hb, g', b', hg', hb', hext.rounds, ?_, ?_, ?_⟩
  · exact hext.kept ⟨2, .terminal⟩ (by decide)
  · exact hext.nonterminal ⟨3, .nonterminal⟩ (by decide) (hnew 3 _ (by decide))
  · exact hext.terminal ⟨4, .terminal⟩ (by decide) (hnew 4 _ (by decide))

end Grammar

end Lookahead
