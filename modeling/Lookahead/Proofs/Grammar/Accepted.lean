import Lookahead.Proofs.Grammar.Assembled
import Lookahead.Proofs.Registry.Kinds

/-!
# Grammars that are accepted

A grammar should be drawn from its registry: its productions have both sides,
written with issued symbols, the empty string and the end marker, and its start
is an issued nonterminal. Whatever is drawn so is accepted.

The converse fails on reserved identities alone. Every one of them counts as
known, whatever its kind, and one that is labelled a nonterminal is taken for a
nonterminal of the registry, so it can be the start. `assemble_drawn` says what
is accepted, and which part of it was drawn from the registry.
-/
namespace Lookahead

namespace Grammar

variable {g : Grammar} {r : Registry} {productions : List Production} {start : Symbol}

theorem startFault?_eq_none : startFault? r start = none ↔ r.isNonterminal start = true := by
  unfold startFault?
  split
  next hc =>
    have hn : ¬ r.isNonterminal start = true := by
      intro h
      rw [(Registry.isNonterminal_iff.mp h).2] at hc
      cases hc
    simp [hn]
  next => simp

/-- The parts are written with symbols of the registry, the empty string and the
end marker, and start with a nonterminal of the registry. -/
structure Drawn (r : Registry) (productions : List Production) (start : Symbol) : Prop where
  sides : ∀ p ∈ productions, p.lhs ≠ [] ∧ p.rhs ≠ []
  symbols : ∀ p ∈ productions, ∀ s ∈ p.lhs ++ p.rhs, s ∈ r.symbols ∨ s.id = 0 ∨ s.id = -1
  start : start ∈ r.nonterminals

/-- The parts as the checks let them in: with any reserved identity among the
symbols, and any one labelled a nonterminal at the start. -/
structure Admitted (r : Registry) (productions : List Production) (start : Symbol) : Prop where
  sides : ∀ p ∈ productions, p.lhs ≠ [] ∧ p.rhs ≠ []
  symbols : ∀ p ∈ productions, ∀ s ∈ p.lhs ++ p.rhs, s ∈ r.symbols ∨ s.id ≤ 0
  start : start ∈ r.nonterminals ∨ (start.kind = .nonterminal ∧ start.id ≤ 0)

theorem fault?_eq_none_iff_admitted (hr : r.Issued) :
    fault? r productions start = none ↔ Admitted r productions start := by
  rw [fault?_eq_none, startFault?_eq_none, Registry.isNonterminal_iff_mem]
  simp only [Sound, hr.contains_iff_mem]
  constructor
  · intro h
    exact ⟨fun p hp => ⟨(h.1 p hp).1, (h.1 p hp).2.1⟩, fun p hp => (h.1 p hp).2.2, h.2⟩
  · intro h
    exact ⟨fun p hp => ⟨(h.sides p hp).1, (h.sides p hp).2, h.symbols p hp⟩, h.start⟩

theorem Drawn.admitted (h : Drawn r productions start) : Admitted r productions start where
  sides := h.sides
  symbols p hp s hs := by
    rcases h.symbols p hp s hs with hm | h0
    · exact .inl hm
    · exact .inr (by omega)
  start := .inl h.start

theorem Drawn.start_pos (h : Drawn r productions start) : 0 < start.id :=
  (Registry.mem_nonterminals.mp h.start).2.1

theorem Drawn.le_id (hr : r.Issued) (h : Drawn r productions start) {p : Production}
    (hp : p ∈ productions) {s : Symbol} (hs : s ∈ p.lhs ++ p.rhs) : -1 ≤ s.id := by
  rcases h.symbols p hp s hs with hm | h0
  · have hpos := (Registry.id_of_mem_symbols hr hm).1
    omega
  · omega

theorem Admitted.drawn (h : Admitted r productions start) (h0 : 0 < start.id)
    (hle : ∀ p ∈ productions, ∀ s ∈ p.lhs ++ p.rhs, -1 ≤ s.id) : Drawn r productions start where
  sides := h.sides
  symbols p hp s hs := by
    have hid := hle p hp s hs
    rcases h.symbols p hp s hs with hm | h1
    · exact .inl hm
    · exact .inr (by omega)
  start := by
    rcases h.start with hm | hn
    · exact hm
    · exact absurd h0 (Int.not_lt.mpr hn.2)

/-- What is accepted was drawn from the registry, but for reserved identities:
none may be the start, and none but the first two may occur in a production. -/
theorem assemble_drawn (hr : r.Issued) :
    ((assemble r productions start).value = .ok g ↔
        Admitted r productions start ∧ g = ⟨r, productions, start⟩) ∧
      (Drawn r productions start ↔
        Admitted r productions start ∧ 0 < start.id ∧
          ∀ p ∈ productions, ∀ s ∈ p.lhs ++ p.rhs, -1 ≤ s.id) := by
  constructor
  · rw [value_assemble, fault?_eq_none_iff_admitted hr]
  · constructor
    · intro h
      exact ⟨h.admitted, h.start_pos, fun _ hp _ hs => h.le_id hr hp hs⟩
    · intro h
      exact h.1.drawn h.2.1 h.2.2

theorem assemble_drawn_repetition :
    repetition.registry.Issued ∧
      Admitted repetition.registry repetition.productions repetition.start ∧
      Drawn repetition.registry repetition.productions repetition.start := by
  have hr : repetition.registry.Issued := Registry.issued_ofList _
  have hadmitted : Admitted repetition.registry repetition.productions repetition.start :=
    ((assemble_drawn (g := repetition) hr).1.mp rfl).1
  refine ⟨hr, hadmitted, ?_⟩
  exact (assemble_drawn (g := repetition) hr).2.mpr ⟨hadmitted, by decide, by decide⟩

/-- The empty string, labelled a nonterminal, can be the start, and an identity
below the end marker can occur on the right. -/
theorem assemble_not_drawn :
    repetition.registry.Issued ∧
      (assemble repetition.registry [] ⟨0, .nonterminal⟩).value =
        .ok ⟨repetition.registry, [], ⟨0, .nonterminal⟩⟩ ∧
      ¬ Drawn repetition.registry [] ⟨0, .nonterminal⟩ ∧
      (assemble repetition.registry [⟨[⟨1, .nonterminal⟩], [⟨-5, .terminal⟩]⟩]
          ⟨1, .nonterminal⟩).value =
        .ok ⟨repetition.registry, [⟨[⟨1, .nonterminal⟩], [⟨-5, .terminal⟩]⟩], ⟨1, .nonterminal⟩⟩ ∧
      ¬ Drawn repetition.registry [⟨[⟨1, .nonterminal⟩], [⟨-5, .terminal⟩]⟩]
        ⟨1, .nonterminal⟩ := by
  have hr : repetition.registry.Issued := Registry.issued_ofList _
  refine ⟨hr, rfl, ?_, rfl, ?_⟩
  · intro h
    exact absurd h.start_pos (by decide)
  · intro h
    have hid : (-1 : ℤ) ≤ (⟨-5, .terminal⟩ : Symbol).id := h.le_id hr List.mem_cons_self (by decide)
    exact absurd hid (by decide)

end Grammar

end Lookahead
