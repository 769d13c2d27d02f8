import Lookahead.Proofs.Registry.Renamed

/-!
# Kinds of symbols

A symbol carries a label for its kind, which need not be the kind under which its
identity was issued. A registry judges it by both: the enumerations list the
identities by kind, and a symbol is a terminal, or a nonterminal, of the registry
when its identity is listed under its label.

For terminals this is exactly what `isTerminal` says. `isNonterminal` says it of
positive identities only: it also holds of every reserved one that is labelled a
nonterminal, though none is ever listed.
-/
namespace Lookahead.Registry

variable {r : Registry} {s : Symbol}

/-- The known symbols are those known by a positive identity, and the reserved ones. -/
theorem contains_iff_pos_or :
    r.contains s = true ↔ (0 < s.id ∧ r.contains s = true) ∨ s.id ≤ 0 := by
  constructor
  · intro h
    rcases Int.lt_or_le 0 s.id with h0 | h0
    · exact .inl ⟨h0, h⟩
    · exact .inr h0
  · intro h
    rcases h with h | h0
    · exact h.2
    · exact contains_of_id_le h0

theorem isNonterminal_iff :
    r.isNonterminal s = true ↔ s.kind = .nonterminal ∧ r.contains s = true := by
  rw [isNonterminal, Bool.and_eq_true, Symbol.isNonterminal_iff]

/-- A reserved identity passes for a nonterminal when it is labelled one. -/
theorem isNonterminal_iff_mem :
    r.isNonterminal s = true ↔ s ∈ r.nonterminals ∨ (s.kind = .nonterminal ∧ s.id ≤ 0) := by
  rw [isNonterminal_iff, mem_nonterminals_iff_contains, ← and_or_left, ← contains_iff_pos_or]

theorem Issued.mem_symbols_iff_contains (h : r.Issued) :
    s ∈ r.symbols ↔ 0 < s.id ∧ r.contains s = true := by
  change s ∈ r.terminals ∨ s ∈ r.nonterminals ↔ _
  rw [h.mem_terminals_iff_contains, mem_nonterminals_iff_contains, ← or_and_right]
  exact and_iff_right (by cases s.kind <;> simp)

theorem Issued.contains_iff_mem (h : r.Issued) :
    r.contains s = true ↔ s ∈ r.symbols ∨ s.id ≤ 0 := by
  rw [h.mem_symbols_iff_contains, ← contains_iff_pos_or]

/-- Reserved identities are told apart from terminals. -/
theorem Issued.isTerminal_iff_mem (h : r.Issued) : r.isTerminal s = true ↔ s ∈ r.terminals := by
  rw [h.mem_terminals_iff_contains]
  simp only [isTerminal, Bool.and_eq_true, Bool.not_eq_true', Bool.eq_false_iff, ne_eq,
    Symbol.isReserved_iff, Symbol.isTerminal_iff, Int.not_le]
  rw [and_comm (a := 0 < s.id), and_assoc]

/-- In a list of symbols of one kind a symbol stands where its identity does, as long
as its label is that kind. -/
theorem mem_iff_exists_id {l : List Symbol} {kind : Kind} (hl : ∀ t ∈ l, t.kind = kind) :
    s ∈ l ↔ s.kind = kind ∧ ∃ t ∈ l, t.id = s.id := by
  constructor
  · intro h
    exact ⟨hl s h, s, h, rfl⟩
  · intro h
    obtain ⟨hk, t, ht, hid⟩ := h
    rwa [← Symbol.eq_of_id_of_kind hid ((hl t ht).trans hk.symm)]

/-- The registry takes a symbol for a terminal when it lists the identity as one
under the label of the symbol, and for a nonterminal likewise, but for the reserved
identities that are labelled nonterminals. No symbol is taken for both, and no
reserved one for a terminal. -/
theorem Issued.isTerminal_isNonterminal_iff (h : r.Issued) (s : Symbol) :
    (r.isTerminal s = true ↔ s.kind = .terminal ∧ ∃ t ∈ r.terminals, t.id = s.id) ∧
      (r.isNonterminal s = true ↔
        s.kind = .nonterminal ∧ ((∃ n ∈ r.nonterminals, n.id = s.id) ∨ s.id ≤ 0)) ∧
      ¬ (r.isTerminal s = true ∧ r.isNonterminal s = true) ∧
      (s.id ≤ 0 → r.isTerminal s = false) := by
  refine ⟨?_, ?_, ?_, ?_⟩
  · rw [h.isTerminal_iff_mem]
    exact mem_iff_exists_id fun t ht => (mem_terminals.mp ht).1
  · have hlisted : s ∈ r.nonterminals ↔
        s.kind = .nonterminal ∧ ∃ n ∈ r.nonterminals, n.id = s.id :=
      mem_iff_exists_id fun n hn => (mem_nonterminals.mp hn).1
    rw [isNonterminal_iff_mem, hlisted, and_or_left]
  · intro hs
    have ht := (mem_terminals.mp (h.isTerminal_iff_mem.mp hs.1)).1
    have hn := (isNonterminal_iff.mp hs.2).1
    rw [ht] at hn
    cases hn
  · intro h0
    rw [Bool.eq_false_iff]
    intro ht
    exact Int.not_le.mpr (h.terminal_id (h.isTerminal_iff_mem.mp ht)).1 h0

/-- Of the identities of a nonterminal `S` and a terminal `x`, each is taken for its
own kind only, and only under the label of that kind. -/
theorem isTerminal_isNonterminal_iff_pair :
    (ofNames ["S"] ["x"]).value.Issued ∧
      (ofNames ["S"] ["x"]).value.isNonterminal ⟨1, .nonterminal⟩ = true ∧
      (ofNames ["S"] ["x"]).value.isNonterminal ⟨2, .nonterminal⟩ ≠ true ∧
      (ofNames ["S"] ["x"]).value.isTerminal ⟨2, .terminal⟩ = true ∧
      (ofNames ["S"] ["x"]).value.isTerminal ⟨1, .terminal⟩ ≠ true ∧
      (ofNames ["S"] ["x"]).value.isTerminal ⟨0, .terminal⟩ = false := by
  have h : (ofNames ["S"] ["x"]).value.Issued := issued_ofNames _ _
  refine ⟨h, ?_, ?_, ?_, ?_, ?_⟩
  · exact (h.isTerminal_isNonterminal_iff ⟨1, .nonterminal⟩).2.1.mpr (by decide)
  · exact mt (h.isTerminal_isNonterminal_iff ⟨2, .nonterminal⟩).2.1.mp (by decide)
  · exact (h.isTerminal_isNonterminal_iff ⟨2, .terminal⟩).1.mpr (by decide)
  · exact mt (h.isTerminal_isNonterminal_iff ⟨1, .terminal⟩).1.mp (by decide)
  · exact (h.isTerminal_isNonterminal_iff ⟨0, .terminal⟩).2.2.2 (by decide)

/-- The empty string, labelled a nonterminal, is taken for a nonterminal of a registry
that lists no nonterminal with its identity. -/
theorem isNonterminal_not_listed :
    (ofNames ["S"] ["x"]).value.Issued ∧
      (⟨0, .nonterminal⟩ : Symbol).isReserved = true ∧
      (ofNames ["S"] ["x"]).value.isNonterminal ⟨0, .nonterminal⟩ = true ∧
      ¬ ∃ n ∈ (ofNames ["S"] ["x"]).value.nonterminals,
        n.id = (⟨0, .nonterminal⟩ : Symbol).id :=
  ⟨issued_ofNames _ _, by decide, by decide, by decide⟩

end Lookahead.Registry
