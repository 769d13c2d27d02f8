import Lookahead.Proofs.Registry.Issued
import Mathlib.Data.Set.Function

/-!
# Renamed registries

A renaming moves identities: reserved ones stay, and the symbols of one registry
go one to one onto those of another, each to a symbol of its kind. Symbols are
told apart by identity, so what a renaming keeps is stated for identities up to
the size of the registry. There it is one to one (`Renamed.inj`), and it takes
terminals to terminals and nonterminals to nonterminals.
-/
namespace Lookahead

def Symbol.rename (f : ℤ → ℤ) (s : Symbol) : Symbol := ⟨f s.id, s.kind⟩

/-- The symbols that a registry has issued. -/
def Registry.symbols (r : Registry) : Set Symbol := {s | s ∈ r.terminals ∨ s ∈ r.nonterminals}

/-- The identities move as `f` says: no reserved one does, and issued symbols go
one to one onto issued symbols. -/
structure Registry.Renamed (f : ℤ → ℤ) (r r' : Registry) : Prop where
  reserved : ∀ i ≤ 0, f i = i
  bijOn : Set.BijOn (Symbol.rename f) r.symbols r'.symbols

@[simp] theorem Symbol.rename_id (f : ℤ → ℤ) (s : Symbol) : (s.rename f).id = f s.id := rfl

namespace Registry

variable {f : ℤ → ℤ} {r r' : Registry} {s t : Symbol}

theorem mem_terminals_iff_symbols : s ∈ r.terminals ↔ s ∈ r.symbols ∧ s.kind = .terminal := by
  constructor
  · intro h
    exact ⟨.inl h, (mem_terminals.mp h).1⟩
  · intro h
    rcases h.1 with ht | hn
    · exact ht
    · have hk := (mem_nonterminals.mp hn).1
      rw [h.2] at hk
      cases hk

theorem mem_nonterminals_iff_symbols :
    s ∈ r.nonterminals ↔ s ∈ r.symbols ∧ s.kind = .nonterminal := by
  constructor
  · intro h
    exact ⟨.inr h, (mem_nonterminals.mp h).1⟩
  · intro h
    rcases h.1 with ht | hn
    · have hk := (mem_terminals.mp ht).1
      rw [h.2] at hk
      cases hk
    · exact hn

theorem id_of_mem_symbols (hr : r.Issued) (h : s ∈ r.symbols) : 0 < s.id ∧ s.id ≤ r.size := by
  rcases h with ht | hn
  · exact hr.terminal_id ht
  · have hid := mem_nonterminals.mp hn
    exact ⟨hid.2.1, hr.lt_nextId_iff.mp hid.2.2.1⟩

/-- An issued symbol is determined by its identity. -/
theorem eq_of_mem_symbols (hs : s ∈ r.symbols) (ht : t ∈ r.symbols) (h : s.id = t.id) : s = t := by
  have hkind : s.kind = t.kind := by
    rcases hs with hs | hs
    · rcases ht with ht | ht
      · rw [(mem_terminals.mp hs).1, (mem_terminals.mp ht).1]
      · exact absurd h.symm (id_ne_of_mem ht hs)
    · rcases ht with ht | ht
      · exact absurd h (id_ne_of_mem hs ht)
      · rw [(mem_nonterminals.mp hs).1, (mem_nonterminals.mp ht).1]
  exact Symbol.eq_of_id_of_kind h hkind

theorem exists_mem_symbols (hr : r.Issued) (h0 : 0 < s.id) (hs : s.id ≤ r.size) :
    ∃ t ∈ r.symbols, t.id = s.id := by
  rcases hr.exists_mem_of_id h0 hs with ⟨t, ht, he⟩ | ⟨t, ht, he⟩
  · exact ⟨t, .inl ht, he⟩
  · exact ⟨t, .inr ht, he⟩

namespace Renamed

variable (hf : r.Renamed f r') (hr : r.Issued) (hr' : r'.Issued)

include hf hr hr'

theorem pos (h0 : 0 < s.id) (hs : s.id ≤ r.size) : 0 < f s.id := by
  obtain ⟨t, ht, he⟩ := exists_mem_symbols hr h0 hs
  rw [← he]
  exact (id_of_mem_symbols hr' (hf.bijOn.mapsTo ht)).1

/-- Up to the size of the registry, no two identities become one. -/
theorem inj (hs : s.id ≤ r.size) (ht : t.id ≤ r.size) : f s.id = f t.id ↔ s.id = t.id := by
  refine ⟨fun h => ?_, fun h => by rw [h]⟩
  rcases Int.lt_or_le 0 s.id with hs0 | hs0
  · rcases Int.lt_or_le 0 t.id with ht0 | ht0
    · obtain ⟨s', hs', hse⟩ := exists_mem_symbols hr hs0 hs
      obtain ⟨t', ht', hte⟩ := exists_mem_symbols hr ht0 ht
      have he : s'.rename f = t'.rename f := by
        apply eq_of_mem_symbols (hf.bijOn.mapsTo hs') (hf.bijOn.mapsTo ht')
        rw [Symbol.rename_id, Symbol.rename_id, hse, hte, h]
      rw [← hse, ← hte, hf.bijOn.injOn hs' ht' he]
    · have hpos := hf.pos hr hr' hs0 hs
      rw [h, hf.reserved t.id ht0] at hpos
      omega
  · rcases Int.lt_or_le 0 t.id with ht0 | ht0
    · have hpos := hf.pos hr hr' ht0 ht
      rw [← h, hf.reserved s.id hs0] at hpos
      omega
    · rwa [hf.reserved s.id hs0, hf.reserved t.id ht0] at h

theorem eq_reserved (hs : s.id ≤ r.size) {i : ℤ} (hi : i ≤ 0) : f s.id = i ↔ s.id = i := by
  have hle : (Symbol.mk i .terminal).id ≤ r.size := by
    change i ≤ (r.size : ℤ)
    omega
  have h := hf.inj hr hr' (t := ⟨i, .terminal⟩) hs hle
  rwa [show f (Symbol.mk i .terminal).id = i from hf.reserved i hi] at h

/-- A renamed identity belongs to an issued symbol of the same kind. -/
theorem exists_symbol {kind : Kind} (hs : s.id ≤ r.size) :
    (∃ t ∈ r'.symbols, t.kind = kind ∧ t.id = f s.id) ↔
      ∃ t ∈ r.symbols, t.kind = kind ∧ t.id = s.id := by
  constructor
  · intro h
    obtain ⟨t', ht', hk, he⟩ := h
    obtain ⟨t, ht, rfl⟩ := hf.bijOn.surjOn ht'
    exact ⟨t, ht, hk, (hf.inj hr hr' (id_of_mem_symbols hr ht).2 hs).mp he⟩
  · intro h
    obtain ⟨t, ht, hk, he⟩ := h
    refine ⟨t.rename f, hf.bijOn.mapsTo ht, hk, ?_⟩
    rw [Symbol.rename_id, he]

theorem exists_terminal (hs : s.id ≤ r.size) :
    (∃ t ∈ r'.terminals, t.id = f s.id) ↔ ∃ t ∈ r.terminals, t.id = s.id := by
  simp only [mem_terminals_iff_symbols, and_assoc]
  exact hf.exists_symbol hr hr' hs

theorem exists_nonterminal (hs : s.id ≤ r.size) :
    (∃ t ∈ r'.nonterminals, t.id = f s.id) ↔ ∃ t ∈ r.nonterminals, t.id = s.id := by
  simp only [mem_nonterminals_iff_symbols, and_assoc]
  exact hf.exists_symbol hr hr' hs

end Renamed

end Registry

end Lookahead
