import Lookahead.Proofs.First.Honoured
import Lookahead.Proofs.Grammar.Outcome

/-!
# Grammars read from rules

A rule can only name the empty string and symbols of the registry, and each name
comes back as the symbol that was issued for it. So in a grammar read from rules
every symbol has its own kind, and the end marker has no way in: no name stands
for it, not even its own. That rules out all that can go wrong with a grammar put
together by hand. The table lists every symbol on a right side from the first
round on, and the analysis honours every production.

None of this depends on the names, which may be those of the reserved symbols,
may be no words at all, or may be in use under both kinds.
-/
namespace Lookahead.Grammar

variable {g : Grammar} {r : Registry} {rules : List String} {productions : List Production}
  {start s : Symbol} {p : Production}

/-- Both sides of every production are there, written with the empty string and the
symbols of the registry, each under its own kind, and the start is a nonterminal. -/
structure WellFormed (g : Grammar) : Prop where
  sides : ∀ p ∈ g.productions, p.lhs ≠ [] ∧ p.rhs ≠ []
  symbols : ∀ p ∈ g.productions, ∀ s ∈ p.lhs ++ p.rhs, s = .epsilon ∨ s ∈ g.registry.symbols
  endMarker : ∀ p ∈ g.productions, ∀ s ∈ p.lhs ++ p.rhs, s.id ≠ Symbol.endMarker.id
  start : g.start ∈ g.registry.nonterminals

section Read

variable (hr : r.Issued)
include hr

theorem Reads.symbols (h : Reads r rules productions) (hp : p ∈ productions)
    (hs : s ∈ p.lhs ++ p.rhs) : s = .epsilon ∨ s ∈ r.symbols := by
  obtain ⟨text, hread⟩ := h.exists_read hp
  obtain ⟨name, hname⟩ := Rule.exists_name_of_read hread hs
  exact (hr.resolve_cases hname).imp And.right And.right

theorem id_nonneg_of_symbols (hs : s = .epsilon ∨ s ∈ r.symbols) : 0 ≤ s.id := by
  rcases hs with rfl | hs
  · exact le_rfl
  · exact (Registry.id_of_mem_symbols hr hs).1.le

theorem wellFormed_of_reads (h : Reads r rules productions) (hn : start ∈ r.nonterminals) :
    WellFormed ⟨r, productions, start⟩ where
  sides p hp := by
    have hsound := h.sound hr hp
    exact ⟨hsound.1, hsound.2.1⟩
  symbols _ hp _ hs := h.symbols hr hp hs
  endMarker p hp s hs := by
    have h0 := id_nonneg_of_symbols hr (h.symbols hr hp hs)
    rw [Symbol.endMarker_id]
    omega
  start := hn

end Read

namespace WellFormed

variable (h : g.WellFormed) (hr : g.registry.Issued)
include h

theorem mentionsEndMarker_eq_false : g.mentionsEndMarker = false := by
  rw [Bool.eq_false_iff, Ne, mentionsEndMarker_iff_ids]
  intro hm
  obtain ⟨p, hp, hm⟩ := hm
  obtain ⟨s, hs, hid⟩ := List.mem_map.mp hm
  exact h.endMarker p hp s (List.mem_append_right p.lhs hs) hid

theorem drawn : Drawn g.registry g.productions g.start where
  sides := h.sides
  symbols p hp s hs := by
    rcases h.symbols p hp s hs with rfl | hs
    · exact .inr (.inl rfl)
    · exact .inl hs
  start := h.start

include hr

theorem assembled : g.Assembled := by
  have hf := (fault?_eq_none_iff_admitted hr).mpr h.drawn.admitted
  exact ⟨g.registry, g.productions, g.start, hr, value_assemble.mpr ⟨hf, rfl⟩⟩

theorem id_nonneg (hp : p ∈ g.productions) (hs : s ∈ p.lhs ++ p.rhs) : 0 ≤ s.id :=
  id_nonneg_of_symbols hr (h.symbols p hp s hs)

/-- No round comes across a symbol that its table does not list. -/
theorem isSome_tableAfter_of_mem (k : ℕ) (hp : p ∈ g.productions) (hs : s ∈ p.rhs) :
    ((g.tableAfter k).find? s).isSome := by
  have h0 := h.id_nonneg hr hp (List.mem_append_right p.lhs hs)
  apply isSome_tableAfter.mpr
  exact ((h.assembled hr).listed_iff hp hs).mpr (by omega)

theorem not_listed_endMarker : ¬ g.Listed .endMarker := by
  intro hl
  rcases hl with h0 | hl | hn
  · cases h0
  · rcases hl with ⟨t, ht, hid⟩ | ⟨hm, _⟩
    · have hpos := (hr.terminal_id ht).1
      rw [hid, Symbol.endMarker_id] at hpos
      omega
    · rw [h.mentionsEndMarker_eq_false] at hm
      cases hm
  · exact absurd hn.id_pos (by decide)

/-- A context-free grammar expands issued symbols: the empty string is no nonterminal. -/
theorem lhs_pos (hc : g.isContextFree = true) (hp : p ∈ g.productions) (hs : s ∈ p.lhs) :
    0 < s.id := by
  obtain ⟨n, hlhs, hn⟩ := isContextFree_iff.mp hc p hp
  have hkind := (Registry.isNonterminal_iff.mp hn).1
  have hmem := h.symbols p hp s (List.mem_append_left p.rhs hs)
  rw [hlhs, List.mem_singleton] at hs
  subst hs
  rcases hmem with rfl | hmem
  · cases hkind
  · exact (Registry.id_of_mem_symbols hr hmem).1

theorem honours (hc : g.isContextFree = true) (hp : p ∈ g.productions) :
    Analysis.Honours ⟨g, g.solveFirst.value⟩ p := by
  apply honours_of_pos (h.assembled hr) hc hp
  · intro s hs
    exact h.lhs_pos hr hc hp hs
  · intro s hs
    have h0 := h.id_nonneg hr hp (List.mem_append_right p.lhs hs)
    omega

end WellFormed

/-- A grammar read from rules is well-formed, whatever the names. No round looks up a
symbol in vain, the end marker stays unknown, and every production counts. -/
theorem ofRules_wellFormed {nonterminals terminals rules : List String} {start : String}
    (h : (ofRules nonterminals terminals rules start).value = .ok g) :
    g.WellFormed ∧
      (∀ k, ∀ p ∈ g.productions, ∀ s ∈ p.rhs, ((g.tableAfter k).find? s).isSome) ∧
      ∀ b, g.analyze.value = .ok b →
        b.firstSet? .endMarker = none ∧ ∀ p ∈ g.productions, b.Honours p := by
  have hr := Registry.issued_ofNames nonterminals terminals
  cases value_ofRules_eq_iff.mp h with
  | built hread _ hn =>
      have hg := wellFormed_of_reads hr hread hn
      refine ⟨hg, fun k _ hp _ hs => hg.isSome_tableAfter_of_mem hr k hp hs, fun b hb => ?_⟩
      obtain ⟨hc, rfl⟩ := value_analyze.mp hb
      refine ⟨?_, fun p hp => hg.honours hr hc hp⟩
      have hmarker := hg.not_listed_endMarker hr
      rw [← isSome_solveFirst, Option.not_isSome_iff_eq_none] at hmarker
      exact hmarker

/-- `S → x dollar` and `x → ε`, where `x` is in use under both kinds and `dollar` is a
terminal. -/
def colliding : Grammar where
  registry := (Registry.ofNames ["S", "epsilon", "x", "->"] ["dollar", "x"]).value
  productions :=
    [⟨[⟨2, .nonterminal⟩], [⟨4, .nonterminal⟩, ⟨5, .terminal⟩, .epsilon]⟩,
      .vanishing ⟨4, .nonterminal⟩]
  start := ⟨2, .nonterminal⟩

/-- The names of the reserved symbols give no way to the end marker. -/
theorem ofRules_wellFormed_colliding :
    (ofRules ["S", "epsilon", "x", "->"] ["dollar", "x"]
        ["S->x dollar epsilon", "x -> epsilon"] "S").value = .ok colliding ∧
      colliding.analyze.value = .ok ⟨colliding, colliding.solveFirst.value⟩ ∧
      colliding.WellFormed ∧
      Analysis.firstSet? ⟨colliding, colliding.solveFirst.value⟩ .endMarker = none ∧
      ∀ p ∈ colliding.productions, Analysis.Honours ⟨colliding, colliding.solveFirst.value⟩ p := by
  have hg : (ofRules ["S", "epsilon", "x", "->"] ["dollar", "x"]
      ["S->x dollar epsilon", "x -> epsilon"] "S").value = .ok colliding := rfl
  have hb : colliding.analyze.value = .ok ⟨colliding, colliding.solveFirst.value⟩ :=
    value_analyze.mpr ⟨by decide, rfl⟩
  obtain ⟨hwf, _, hanalysis⟩ := ofRules_wellFormed hg
  exact ⟨hg, hb, hwf, hanalysis _ hb⟩

end Lookahead.Grammar
