import Lookahead.Proofs.First.Least
import Lookahead.Proofs.Grammar.Accepted

/-!
# Productions that count

An analysis honours a production when its table lists every symbol on both
sides, when the production is found under one nonterminal of the registry, the
one on its left, and when whatever its right side can start with is known of
that nonterminal.

A context-free grammar can still hold productions that expand a reserved
identity, since one that is labelled a nonterminal passes for a nonterminal of
the registry. No round ever looks at them. `analyze_honours` says that these, and
the productions with an identity below the end marker on the right, are the only
ones that are not honoured.
-/
namespace Lookahead

/-- The table of the analysis takes all of the production into account. -/
structure Analysis.Honours (a : Analysis) (p : Production) : Prop where
  listed : ∀ s ∈ p.lhs ++ p.rhs, (a.firstSet? s).isSome
  expands : ∃ n ∈ a.grammar.registry.nonterminals, p.lhs = [n]
  once : ∃! n, n ∈ a.grammar.registry.nonterminals ∧ p ∈ a.grammar.productionsOf n
  first : ∃ n X, p.lhs = [n] ∧ a.firstSet? n = some X ∧ a.firstOf p.rhs ⊆ X

namespace Grammar

variable {g : Grammar} {p : Production} {s n : Symbol}

/-- Nonterminals of a registry are told apart by identity. -/
theorem eq_of_mem_nonterminals {r : Registry} {m : Symbol} (hn : n ∈ r.nonterminals)
    (hm : m ∈ r.nonterminals) (h : n.id = m.id) : n = m :=
  Registry.eq_of_mem_symbols (.inr hn) (.inr hm) h

theorem mentionsEndMarker_of_mem (hp : p ∈ g.productions) (hs : s ∈ p.rhs)
    (h : s.id = Symbol.endMarker.id) : g.mentionsEndMarker = true := by
  unfold mentionsEndMarker
  simp only [List.any_eq_true, Symbol.same_iff]
  exact ⟨p, hp, s, hs, h⟩

/-- What occurs on the right is listed, down to the end marker. -/
theorem Assembled.listed_iff (h : g.Assembled) (hp : p ∈ g.productions) (hs : s ∈ p.rhs) :
    g.Listed s ↔ -1 ≤ s.id := by
  constructor
  · intro hl
    rcases hl with h0 | hl | hn
    · omega
    · rcases hl with ⟨a, ha, hid⟩ | ⟨_, hid⟩
      · have hpos := (h.issued.terminal_id ha).1
        omega
      · rw [hid, Symbol.endMarker_id]
    · have hpos := hn.id_pos
      omega
  · intro hle
    have hknown := h.contains hp (List.mem_append_right p.lhs hs)
    rcases h.issued.contains_iff_mem.mp hknown with hm | h0
    · rcases hm with ht | hn
      · exact .inr (.inl (.inl ⟨s, ht, rfl⟩))
      · exact .inr (.inr ⟨s, hn, rfl⟩)
    · rcases Int.lt_or_le s.id 0 with hneg | h1
      · have hid : s.id = Symbol.endMarker.id := by
          rw [Symbol.endMarker_id]
          omega
        exact .inr (.inl (.inr ⟨mentionsEndMarker_of_mem hp hs hid, hid⟩))
      · exact .inl (by omega)

theorem isSome_firstSet? :
    (Analysis.firstSet? ⟨g, g.solveFirst.value⟩ s).isSome ↔ g.Listed s := by
  change (g.solveFirst.value.table.find? s).isSome ↔ _
  exact isSome_solveFirst

/-- A production of a nonterminal is filed under it, and under no other. -/
theorem existsUnique_productionsOf (hp : p ∈ g.productions) (hl : p.lhs = [n])
    (hn : n ∈ g.registry.nonterminals) :
    ∃! m, m ∈ g.registry.nonterminals ∧ p ∈ g.productionsOf m := by
  refine ⟨n, ⟨hn, mem_productionsOf.mpr ⟨hp, n, hl, rfl⟩⟩, ?_⟩
  intro m hm
  obtain ⟨_, k, hk, hid⟩ := mem_productionsOf.mp hm.2
  rw [hl, List.singleton_inj] at hk
  apply eq_of_mem_nonterminals hm.1 hn
  rw [hk, hid]

/-- A production of a reserved identity is filed under no nonterminal. -/
theorem notMem_productionsOf (hl : ∃ s ∈ p.lhs, s.id ≤ 0) (hn : n ∈ g.registry.nonterminals) :
    p ∉ g.productionsOf n := by
  intro hp
  obtain ⟨_, k, hk, hid⟩ := mem_productionsOf.mp hp
  obtain ⟨s, hs, h0⟩ := hl
  rw [hk, List.mem_singleton] at hs
  have hpos := (Registry.mem_nonterminals.mp hn).2.1
  rw [hs] at h0
  omega

theorem honours_of_pos (h : g.Assembled) (hc : g.isContextFree = true) (hp : p ∈ g.productions)
    (hl : ∀ s ∈ p.lhs, 0 < s.id) (hr : ∀ s ∈ p.rhs, -1 ≤ s.id) :
    Analysis.Honours ⟨g, g.solveFirst.value⟩ p := by
  obtain ⟨n, hlhs, hnonterminal⟩ := isContextFree_iff.mp hc p hp
  have h0 : 0 < n.id := hl n (by rw [hlhs]; exact List.mem_singleton_self n)
  have hn : n ∈ g.registry.nonterminals := by
    rcases Registry.isNonterminal_iff_mem.mp hnonterminal with hn | hreserved
    · exact hn
    · exact absurd h0 (Int.not_lt.mpr hreserved.2)
  have hlisted : g.Listed n := .inr (.inr ⟨n, hn, rfl⟩)
  refine ⟨?_, ⟨n, hn, hlhs⟩, existsUnique_productionsOf hp hlhs hn, ?_⟩
  · intro s hs
    apply isSome_firstSet?.mpr
    rcases List.mem_append.mp hs with hs | hs
    · rw [hlhs, List.mem_singleton] at hs
      rw [hs]
      exact hlisted
    · exact (h.listed_iff hp hs).mpr (hr s hs)
  · have hset : Analysis.firstSet? ⟨g, g.solveFirst.value⟩ n =
        some (g.solveFirst.value.table.setOf n) := by
      change g.solveFirst.value.table.find? n = _
      exact find?_solveFirst hlisted
    have hrewrites : g.Rewrites n p :=
      ⟨⟨n, hn, rfl⟩, mem_productionsOf.mpr ⟨hp, n, hlhs, rfl⟩⟩
    exact ⟨n, _, hlhs, hset, g.closed_solveFirst.subset hrewrites⟩

/-- An analysis honours a production unless it expands a reserved identity, or
has one below the end marker on the right. In the former case the production is
left out altogether. -/
theorem analyze_honours {a : Analysis} (hg : g.Assembled) (ha : g.analyze.value = .ok a)
    (hp : p ∈ g.productions) :
    (a.Honours p ↔ (∀ s ∈ p.lhs, 0 < s.id) ∧ ∀ s ∈ p.rhs, -1 ≤ s.id) ∧
      ((∃ s ∈ p.lhs, s.id ≤ 0) → ∀ n ∈ g.registry.nonterminals, p ∉ g.productionsOf n) := by
  obtain ⟨hc, rfl⟩ := value_analyze.mp ha
  refine ⟨?_, fun hl _ hn => notMem_productionsOf hl hn⟩
  constructor
  · intro h
    constructor
    · intro s hs
      obtain ⟨n, hn, hlhs⟩ := h.expands
      rw [hlhs, List.mem_singleton] at hs
      rw [hs]
      exact (Registry.mem_nonterminals.mp hn).2.1
    · intro s hs
      apply (hg.listed_iff hp hs).mp
      exact isSome_firstSet?.mp (h.listed s (List.mem_append_right p.lhs hs))
  · intro h
    exact honours_of_pos hg hc hp h.1 h.2

/-- The analysis of `S → S a` and `S → ε` honours both. -/
theorem analyze_honours_repetition :
    repetition.Assembled ∧
      repetition.analyze.value = .ok ⟨repetition, repetition.solveFirst.value⟩ ∧
      ∀ p ∈ repetition.productions,
        Analysis.Honours ⟨repetition, repetition.solveFirst.value⟩ p := by
  have ha : repetition.analyze.value = .ok ⟨repetition, repetition.solveFirst.value⟩ :=
    value_analyze.mpr ⟨by decide, rfl⟩
  refine ⟨assembled_repetition, ha, ?_⟩
  intro p hp
  have hids : ∀ q ∈ repetition.productions,
      (∀ s ∈ q.lhs, 0 < s.id) ∧ ∀ s ∈ q.rhs, -1 ≤ s.id := by decide
  exact (analyze_honours assembled_repetition ha hp).1.mpr (hids p hp)

/-- The production that lets the empty string, labelled a nonterminal, stand for `a`. -/
def reservedHead : Production := ⟨[⟨0, .nonterminal⟩], [⟨2, .terminal⟩]⟩

def reservedHeads : Grammar := { repetition with productions := [reservedHead] }

/-- The production is accepted and analysed, but it is filed under no nonterminal,
and the set of its left side knows nothing of `a`. -/
theorem analyze_not_honours :
    reservedHeads.Assembled ∧
      reservedHeads.analyze.value = .ok ⟨reservedHeads, reservedHeads.solveFirst.value⟩ ∧
      reservedHead ∈ reservedHeads.productions ∧
      (∀ n ∈ reservedHeads.registry.nonterminals, reservedHead ∉ reservedHeads.productionsOf n) ∧
      ¬ Analysis.Honours ⟨reservedHeads, reservedHeads.solveFirst.value⟩ reservedHead ∧
      ¬ reservedHeads.solveFirst.value.table.firstOf reservedHead.rhs ⊆
        reservedHeads.solveFirst.value.table.firstOf reservedHead.lhs := by
  have hg : reservedHeads.Assembled :=
    ⟨reservedHeads.registry, reservedHeads.productions, reservedHeads.start,
      Registry.issued_ofList _, rfl⟩
  have hc : reservedHeads.isContextFree = true := by decide
  have hleft : ∀ n ∈ reservedHeads.registry.nonterminals,
      reservedHead ∉ reservedHeads.productionsOf n := by
    intro n hn
    exact notMem_productionsOf ⟨⟨0, .nonterminal⟩, by decide, by decide⟩ hn
  refine ⟨hg, value_analyze.mpr ⟨hc, rfl⟩, List.mem_singleton_self reservedHead, hleft, ?_, ?_⟩
  · intro h
    obtain ⟨n, hn, _⟩ := h.once
    exact hleft n hn.1 hn.2
  · intro h
    have ha : (⟨2, .terminal⟩ : Symbol) ∈
        reservedHeads.solveFirst.value.table.firstOf reservedHead.lhs := h _ (by decide)
    exact absurd ha (by decide)

end Grammar

end Lookahead
