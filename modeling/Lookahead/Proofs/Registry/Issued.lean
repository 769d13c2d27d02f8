import Lookahead.Proofs.Symbol.Bits
import Lookahead.Registry

/-!
# Symbols of a registry

The enumerations of a registry are read off its counter and its terminal bits, so
a symbol is told a terminal or a nonterminal by its identity alone and is never
both. A registry that was built by issuing names one after the other has counted
its names (`Issued.nextId_eq`) and has its bits on issued identities only
(`Issued.bits`).
-/
namespace Lookahead.Registry

variable {r : Registry} {s t : Symbol}

theorem mem_terminals :
    s ∈ r.terminals ↔ s.kind = .terminal ∧ r.terminalBits.has s = true :=
  SymbolBits.mem_symbols

theorem mem_nonterminals :
    s ∈ r.nonterminals ↔
      s.kind = .nonterminal ∧ 0 < s.id ∧ s.id < r.nextId ∧ r.terminalBits.has s = false := by
  simp only [nonterminals, List.mem_filter, List.mem_map, List.mem_range, Bool.not_eq_true',
    Symbol.firstId]
  constructor
  · intro h
    obtain ⟨⟨i, hi, rfl⟩, hb⟩ := h
    refine ⟨rfl, ?_, ?_, hb⟩
    · change (0 : Int) < 1 + i
      omega
    · change (1 : Int) + i < r.nextId
      omega
  · intro h
    obtain ⟨hk, h0, hs, hb⟩ := h
    refine ⟨⟨(s.id - 1).toNat, by omega, ?_⟩, hb⟩
    have hid : (1 : Int) + (s.id - 1).toNat = s.id := by omega
    rw [hid, ← hk]

/-- Nonterminals come by rising identity. -/
theorem pairwise_nonterminals (r : Registry) :
    (r.nonterminals.map (·.id)).Pairwise (· < ·) := by
  rw [List.pairwise_map]
  apply List.Pairwise.filter
  rw [List.pairwise_map]
  apply List.pairwise_lt_range.imp
  intro i j hij
  change Symbol.firstId + (i : Int) < Symbol.firstId + (j : Int)
  omega

/-- Terminals come by rising identity. -/
theorem pairwise_terminals (r : Registry) : (r.terminals.map (·.id)).Pairwise (· < ·) :=
  List.pairwise_map.mpr (r.terminalBits.pairwise_symbols .terminal)

/-- No identity is enumerated under both kinds. -/
theorem id_ne_of_mem (hs : s ∈ r.nonterminals) (ht : t ∈ r.terminals) : s.id ≠ t.id := by
  intro he
  have hb := (mem_nonterminals.mp hs).2.2.2
  rw [r.terminalBits.has_congr he, (mem_terminals.mp ht).2] at hb
  cases hb

theorem contains_iff :
    r.contains s = true ↔
      s.id ≤ 0 ∨ (s.id < r.nextId ∧ r.terminalBits.has s = s.isTerminal) := by
  simp [contains]

theorem contains_of_id_le (h : s.id ≤ 0) : r.contains s = true := contains_iff.mpr (.inl h)

theorem mem_nonterminals_iff_contains :
    s ∈ r.nonterminals ↔ s.kind = .nonterminal ∧ 0 < s.id ∧ r.contains s = true := by
  rw [mem_nonterminals, contains_iff]
  refine and_congr_right fun hk => and_congr_right fun h0 => ?_
  rw [or_iff_right (Int.not_le.mpr h0), Symbol.isTerminal, hk]
  rfl

/-- The registries that issuing names, one after the other, can build. -/
inductive Issued : Registry → Prop
  | empty : Issued empty
  | issue {r : Registry} (name : String) (kind : Kind) :
      Issued r → Issued (r.issue name kind).value.2

theorem Issued.issueAll (h : r.Issued) (names : List (String × Kind)) :
    (r.issueAll names).value.Issued := by
  induction names generalizing r with
  | nil => exact h
  | cons e rest ih => exact ih (h.issue e.1 e.2)

theorem issued_ofList (names : List (String × Kind)) : (ofList names).value.Issued :=
  Issued.empty.issueAll names

theorem issued_ofNames (nonterminals terminals : List String) :
    (ofNames nonterminals terminals).value.Issued :=
  issued_ofList _

/-- Issuing either finds the name or adds it under the next identity. -/
theorem issue_cases (r : Registry) (name : String) (kind : Kind) :
    (∃ s, (r.index kind)[name]? = some s ∧ (r.issue name kind).value = (s, r)) ∨
      ((r.index kind)[name]? = none ∧
        (r.issue name kind).value = (r.nextSymbol kind, r.add name kind)) := by
  unfold issue
  cases hs : (r.index kind)[name]? with
  | some s => exact .inl ⟨s, rfl, rfl⟩
  | none => exact .inr ⟨rfl, rfl⟩

@[simp] theorem size_add (r : Registry) (name : String) (kind : Kind) :
    (r.add name kind).size = r.size + 1 := by
  cases kind <;> simp [add, size]

@[simp] theorem nextId_add (r : Registry) (name : String) (kind : Kind) :
    (r.add name kind).nextId = r.nextId + 1 := by
  cases kind <;> rfl

/-- The counter is ahead of the names by one. -/
theorem Issued.nextId_eq (h : r.Issued) : r.nextId = Symbol.firstId + r.size := by
  induction h with
  | empty => rfl
  | @issue r name kind _ ih =>
      rcases r.issue_cases name kind with ⟨_, _, he⟩ | ⟨_, he⟩
      · rw [he]
        exact ih
      · rw [he, nextId_add, size_add, ih]
        omega

theorem Issued.lt_nextId_iff (h : r.Issued) : s.id < r.nextId ↔ s.id ≤ r.size := by
  rw [h.nextId_eq, Symbol.firstId]
  omega

theorem Issued.id_le_of_contains (h : r.Issued) (hs : r.contains s = true) : s.id ≤ r.size := by
  rcases contains_iff.mp hs with h0 | hs
  · omega
  · exact h.lt_nextId_iff.mp hs.1

theorem has_terminalBits_add (h0 : 0 ≤ r.nextId) (name : String) (kind : Kind) (s : Symbol) :
    (r.add name kind).terminalBits.has s = true ↔
      (s.id = r.nextId ∧ kind = .terminal) ∨ r.terminalBits.has s = true := by
  cases kind with
  | nonterminal => simp [add]
  | terminal => simp [add, SymbolBits.has_set, nextSymbol, h0]

/-- Terminal bits lie on issued identities. -/
theorem Issued.bits (h : r.Issued) (s : Symbol) (hs : r.terminalBits.has s = true) :
    0 < s.id ∧ s.id ≤ r.size := by
  induction h with
  | empty => simp [Registry.empty] at hs
  | @issue r name kind hr ih =>
      rcases r.issue_cases name kind with ⟨_, _, he⟩ | ⟨_, he⟩
      · rw [he] at hs ⊢
        exact ih hs
      · rw [he] at hs ⊢
        have hnext : r.nextId = 1 + (r.size : Int) := hr.nextId_eq
        rw [size_add]
        rcases (has_terminalBits_add (by omega) name kind s).mp hs with ⟨hid, _⟩ | hs
        · omega
        · have hb := ih hs
          omega

theorem Issued.terminal_id (h : r.Issued) (hs : s ∈ r.terminals) : 0 < s.id ∧ s.id ≤ r.size :=
  h.bits s (mem_terminals.mp hs).2

theorem Issued.mem_terminals_iff_contains (h : r.Issued) :
    s ∈ r.terminals ↔ s.kind = .terminal ∧ 0 < s.id ∧ r.contains s = true := by
  rw [mem_terminals]
  refine and_congr_right fun hk => ?_
  have ht : s.isTerminal = true := Symbol.isTerminal_iff.mpr hk
  rw [contains_iff, ht]
  constructor
  · intro hb
    have hid := h.bits s hb
    exact ⟨hid.1, .inr ⟨h.lt_nextId_iff.mpr hid.2, hb⟩⟩
  · intro hs
    rcases hs.2 with h0 | hs'
    · exact absurd hs.1 (Int.not_lt.mpr h0)
    · exact hs'.2

/-- The issued symbols of an identity: one, under the kind that the bits tell. -/
theorem Issued.exists_mem_of_id (h : r.Issued) (h0 : 0 < s.id) (hs : s.id ≤ r.size) :
    (∃ t ∈ r.terminals, t.id = s.id) ∨ ∃ n ∈ r.nonterminals, n.id = s.id := by
  cases hb : r.terminalBits.has s with
  | true =>
      refine .inl ⟨⟨s.id, .terminal⟩, mem_terminals.mpr ⟨rfl, ?_⟩, rfl⟩
      rw [← hb]
      exact r.terminalBits.has_congr rfl
  | false =>
      have hlt : s.id < r.nextId := h.lt_nextId_iff.mpr hs
      refine .inr ⟨⟨s.id, .nonterminal⟩, mem_nonterminals.mpr ⟨rfl, h0, hlt, ?_⟩, rfl⟩
      rw [← hb]
      exact r.terminalBits.has_congr rfl

end Lookahead.Registry
