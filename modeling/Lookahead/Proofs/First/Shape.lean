import Lookahead.Proofs.First.Least
import Lookahead.Proofs.Registry.Entries
import Lookahead.Proofs.Registry.Renamed

/-!
# The shape of the table

Look-ups go by identity, but keys and members are shown with the kind that they
came in with. A production may mention an identity under a wrong kind, and that
label must not get into the table: keys come from the registry alone, and members
from the sets of the terminals, however many rounds are played and whatever string
is read.

So the keys are the end marker, when it is in use, the empty string and the
symbols of the registry, in this order (`keys_solveFirst`), and every set is
determined by the identities in it (`SymbolSet.OfTerminals.eq_of_mem_iff`).
-/
namespace Lookahead

namespace SymbolSet

variable {X Y : SymbolSet} {s : Symbol}

/-- Every symbol in the set is labelled a terminal. -/
def OfTerminals (X : SymbolSet) : Prop := ∀ s ∈ X.toList, s.kind = .terminal

theorem OfTerminals.empty : (∅ : SymbolSet).OfTerminals := by simp [OfTerminals]

theorem OfTerminals.singleton (h : s.kind = .terminal) : (SymbolSet.singleton s).OfTerminals := by
  simpa [OfTerminals] using h

theorem OfTerminals.union (hX : X.OfTerminals) (hY : Y.OfTerminals) : (X ∪ Y).OfTerminals := by
  intro s hs
  rcases Ascending.mem_merge hs with hs | hs
  · exact hX s hs
  · exact hY s hs

theorem OfTerminals.withoutEpsilon (hX : X.OfTerminals) : X.withoutEpsilon.OfTerminals :=
  fun s hs => hX s (List.mem_of_mem_filter hs)

theorem OfTerminals.toList_eq (hX : X.OfTerminals) :
    X.toList = X.ids.map fun i => ⟨i, .terminal⟩ := by
  have hmap : X.toList.map (fun s => Symbol.mk s.id .terminal) = X.toList.map id := by
    apply List.map_congr_left
    intro s hs
    rw [← hX s hs]
    rfl
  rw [ids, List.map_map]
  exact ((List.map_id _).symm.trans hmap.symm)

theorem OfTerminals.eq_of_mem_iff (hX : X.OfTerminals) (hY : Y.OfTerminals)
    (h : ∀ s : Symbol, s ∈ X ↔ s ∈ Y) : X = Y := by
  have hlist : X.toList = Y.toList := by
    rw [hX.toList_eq, hY.toList_eq, ids_eq_iff.mpr h]
  cases X
  cases Y
  cases hlist
  rfl

end SymbolSet

namespace FirstTable

variable {t : FirstTable} {s : Symbol} {X : SymbolSet}

/-- Every set of the table holds symbols labelled terminals only. -/
def OfTerminals (t : FirstTable) : Prop := ∀ e ∈ t.entries, e.2.OfTerminals

theorem OfTerminals.setOf (h : t.OfTerminals) (s : Symbol) : (t.setOf s).OfTerminals := by
  cases hs : t.find? s with
  | none =>
      rw [FirstTable.setOf, hs]
      exact .empty
  | some Y =>
      obtain ⟨e, he, _, rfl⟩ := find?_eq_some_iff.mp hs
      rw [setOf_of_find? hs]
      exact h e he

/-- No label of a string gets into its set. -/
theorem OfTerminals.firstOf (h : t.OfTerminals) (α : List Symbol) :
    (t.firstOf α).OfTerminals := by
  induction α with
  | nil => exact .singleton rfl
  | cons s α ih =>
      unfold FirstTable.firstOf
      cases hs : t.find? s with
      | none => exact .empty
      | some Y =>
          have hY : Y.OfTerminals := setOf_of_find? hs ▸ h.setOf s
          simp only
          split
          · exact hY.withoutEpsilon.union ih
          · exact hY

theorem OfTerminals.extend (h : t.OfTerminals) (hX : X.OfTerminals) :
    (t.extend s X).OfTerminals := by
  intro e he
  rcases Ascending.mem_place he with rfl | he | ⟨d, hd, rfl⟩
  · exact hX
  · exact h e he
  · exact (h d hd).union hX

theorem OfTerminals.foldl_extend {sets : List (Symbol × SymbolSet)} (h : t.OfTerminals)
    (hsets : ∀ e ∈ sets, e.2.OfTerminals) :
    (sets.foldl (fun u e => u.extend e.1 e.2) t).OfTerminals := by
  induction sets generalizing t with
  | nil => exact h
  | cons e sets ih =>
      obtain ⟨he, hsets⟩ := List.forall_mem_cons.mp hsets
      exact ih (h.extend he) hsets

theorem pairwise_keys (t : FirstTable) : t.keys.Pairwise (·.id < ·.id) :=
  List.pairwise_map.mpr t.ascending

theorem exists_key (h : (t.find? s).isSome) : ∃ k ∈ t.keys, k.id = s.id := by
  obtain ⟨e, he, hid, _⟩ := find?_eq_some_iff.mp (find?_eq_some_setOf h)
  exact ⟨e.1, List.mem_map_of_mem he, hid⟩

end FirstTable

namespace Grammar

variable {g : Grammar} {s k a : Symbol} {X : SymbolSet} {i : ℕ}

/-- `s` is the empty string or a letter, under its own kind. -/
def Member (g : Grammar) (s : Symbol) : Prop :=
  s = .epsilon ∨ s ∈ g.registry.terminals ∨ (g.mentionsEndMarker = true ∧ s = .endMarker)

/-- `s` is one of the symbols that a table lists, under its own kind. -/
def Key (g : Grammar) (s : Symbol) : Prop := g.Member s ∨ s ∈ g.registry.nonterminals

/-- The set holds members of the grammar, and nothing by the identity of a nonterminal. -/
def Holds (g : Grammar) (X : SymbolSet) : Prop :=
  ∀ s ∈ X.toList, g.Member s ∧ ¬ g.Nonterminal s

/-- Keys and sets of an analysis, with the kinds that they show. -/
structure Shaped (g : Grammar) (a : Analysis) : Prop where
  keys : ∀ s, s ∈ a.first.table.keys ↔ g.Key s
  size : a.first.table.size = g.registry.size + 1 + if g.mentionsEndMarker then 1 else 0
  fixed : ∀ s, g.Member s → a.firstSet? s = some (.singleton s)
  nonterminal : ∀ n ∈ g.registry.nonterminals, ∃ X, a.firstSet? n = some X ∧ g.Holds X
  string : ∀ α, g.Holds (a.firstOf α)
  idle : ∀ n ∈ g.registry.nonterminals, g.productionsOf n = [] → a.firstSet? n = some ∅

section Kinds

/-- A member is a letter or the empty string, labelled a terminal. -/
theorem member_iff : g.Member s ↔ s.kind = .terminal ∧ (s.id = 0 ∨ g.Letter s) := by
  constructor
  · intro h
    rcases h with rfl | hs | ⟨hm, rfl⟩
    · exact ⟨rfl, .inl rfl⟩
    · exact ⟨(Registry.mem_terminals.mp hs).1, .inr (.inl ⟨s, hs, rfl⟩)⟩
    · exact ⟨rfl, .inr (.inr ⟨hm, rfl⟩)⟩
  · intro h
    obtain ⟨hk, h0 | ⟨t, ht, hid⟩ | ⟨hm, hid⟩⟩ := h
    · exact .inl (Symbol.eq_of_id_of_kind h0 hk)
    · have he : t = s :=
        Symbol.eq_of_id_of_kind hid ((Registry.mem_terminals.mp ht).1.trans hk.symm)
      exact .inr (.inl (he ▸ ht))
    · exact .inr (.inr ⟨hm, Symbol.eq_of_id_of_kind hid hk⟩)

theorem Member.not_nonterminal (h : g.Member s) : ¬ g.Nonterminal s := by
  intro hn
  rcases (member_iff.mp h).2 with h0 | hl
  · have hpos := hn.id_pos
    omega
  · exact hn.not_letter hl

theorem Key.listed (h : g.Key s) : g.Listed s := by
  rcases h with hm | hn
  · rcases (member_iff.mp hm).2 with h0 | hl
    · exact .inl h0
    · exact .inr (.inl hl)
  · exact .inr (.inr ⟨s, hn, rfl⟩)

/-- No identity is a key under two kinds. -/
theorem Key.eq_of_id (hs : g.Key s) (hk : g.Key k) (h : s.id = k.id) : s = k := by
  rcases hs with hs | hs
  · rcases hk with hk | hk
    · apply Symbol.eq_of_id_of_kind h
      rw [(member_iff.mp hs).1, (member_iff.mp hk).1]
    · exact absurd ⟨k, hk, h.symm⟩ hs.not_nonterminal
  · rcases hk with hk | hk
    · exact absurd ⟨s, hs, h⟩ hk.not_nonterminal
    · exact Registry.eq_of_mem_symbols (.inr hs) (.inr hk) h

end Kinds

section Rounds

theorem key_of_mem_keys_tableAfter (h : s ∈ (g.tableAfter i).keys) : g.Key s := by
  induction i with
  | zero =>
      rw [tableAfter_zero, initialTable_eq_foldl] at h
      rcases FirstTable.mem_keys_foldl_extend h with h | h
      · cases h
      · rcases exists_mem_initialSets.mp h with rfl | ⟨a, ha, rfl⟩ | ⟨hm, rfl⟩ | ⟨n, hn, rfl⟩
        · exact .inl (.inl rfl)
        · exact .inl (.inr (.inl ha))
        · exact .inl (.inr (.inr ⟨hm, rfl⟩))
        · exact .inr hn
  | succ i ih =>
      rw [tableAfter_succ] at h
      rcases mem_keys_nextTable h with h | hn
      · exact ih h
      · exact .inr hn

theorem mem_keys_tableAfter : s ∈ (g.tableAfter i).keys ↔ g.Key s := by
  refine ⟨key_of_mem_keys_tableAfter, fun h => ?_⟩
  obtain ⟨k, hk, hid⟩ := FirstTable.exists_key (isSome_tableAfter.mpr h.listed)
  rw [← (key_of_mem_keys_tableAfter hk).eq_of_id h hid]
  exact hk

theorem ofTerminals_initialTable (g : Grammar) : g.initialTable.OfTerminals := by
  rw [initialTable_eq_foldl]
  apply FirstTable.OfTerminals.foldl_extend
  · intro e he
    cases he
  · intro e he
    have hex : ∃ d ∈ g.initialSets, d = e := ⟨e, he, rfl⟩
    rcases exists_mem_initialSets.mp hex with rfl | ⟨a, ha, rfl⟩ | ⟨_, rfl⟩ | ⟨n, _, rfl⟩
    · exact .singleton rfl
    · exact .singleton (Registry.mem_terminals.mp ha).1
    · exact .singleton rfl
    · exact .empty

theorem ofTerminals_firstOfRightSides {t : FirstTable} (ht : t.OfTerminals) (n : Symbol) :
    (g.firstOfRightSides t n).OfTerminals := by
  have h (l : List Production) (X : SymbolSet) (hX : X.OfTerminals) :
      (l.foldl (fun X p => X ∪ t.firstOf p.rhs) X).OfTerminals := by
    induction l generalizing X with
    | nil => exact hX
    | cons p l ih => exact ih _ (hX.union (ht.firstOf p.rhs))
  exact h _ _ .empty

/-- No round lets a label of a production into a set. -/
theorem ofTerminals_nextTable {t : FirstTable} (ht : t.OfTerminals) :
    (g.nextTable t).OfTerminals := by
  rw [nextTable_eq_foldl]
  apply ht.foldl_extend
  intro e he
  obtain ⟨n, _, rfl⟩ := List.mem_map.mp he
  exact ofTerminals_firstOfRightSides ht n

theorem ofTerminals_tableAfter (g : Grammar) (i : ℕ) : (g.tableAfter i).OfTerminals := by
  induction i with
  | zero => exact g.ofTerminals_initialTable
  | succ i ih =>
      rw [tableAfter_succ]
      exact ofTerminals_nextTable ih

end Rounds

section Solution

theorem ofTerminals_solveFirst (g : Grammar) : g.solveFirst.value.table.OfTerminals := by
  rw [solveFirst_table]
  exact g.ofTerminals_tableAfter g.solveFirst.value.rounds

theorem mem_keys_solveFirst : s ∈ g.solveFirst.value.table.keys ↔ g.Key s := by
  rw [solveFirst_table]
  exact mem_keys_tableAfter

/-- Look-ups that find the same members find the same set. -/
theorem find?_solveFirst_congr {g' : Grammar} (hl : g'.Listed s ↔ g.Listed s)
    (h : ∀ a : Symbol, a ∈ g'.solveFirst.value.table.setOf s ↔
      a ∈ g.solveFirst.value.table.setOf s) :
    g'.solveFirst.value.table.find? s = g.solveFirst.value.table.find? s := by
  by_cases hs : g.Listed s
  · rw [find?_solveFirst hs, find?_solveFirst (hl.mpr hs), Option.some_inj]
    exact (g'.ofTerminals_solveFirst.setOf s).eq_of_mem_iff (g.ofTerminals_solveFirst.setOf s) h
  · have hs' : ¬ g'.Listed s := fun hs' => hs (hl.mp hs')
    rw [← isSome_solveFirst, Option.not_isSome_iff_eq_none] at hs hs'
    rw [hs, hs']

/-- The keys are those of the registry behind the reserved ones. -/
theorem keys_solveFirst {entries : List (String × Kind)} (h : g.registry.Records entries) :
    g.solveFirst.value.table.keys =
      (if g.mentionsEndMarker then [.endMarker] else []) ++
        .epsilon :: Registry.symbolsOf entries := by
  have hpos : ∀ s ∈ Registry.symbolsOf entries, 0 < s.id := by
    intro s hs
    obtain ⟨_, hs⟩ := Registry.mem_symbolsOf.mp hs
    exact hs.id_pos
  apply Ascending.eq_of_mem_iff Symbol.id g.solveFirst.value.table.pairwise_keys
  · have hrest : (Symbol.epsilon :: Registry.symbolsOf entries).Pairwise (·.id < ·.id) :=
      List.pairwise_cons.mpr ⟨hpos, Registry.pairwise_symbolsOf entries⟩
    split
    · refine List.pairwise_cons.mpr ⟨?_, hrest⟩
      intro s hs
      rw [Symbol.endMarker_id]
      rcases List.mem_cons.mp hs with rfl | hs
      · decide
      · have h0 := hpos s hs
        omega
    · exact hrest
  · intro s
    have hmarker : s ∈ (if g.mentionsEndMarker then [Symbol.endMarker] else []) ↔
        g.mentionsEndMarker = true ∧ s = .endMarker := by
      split
      next hm => simp [hm]
      next hm => simp [hm]
    rw [solveFirst_table, mem_keys_tableAfter, List.mem_append, hmarker, List.mem_cons,
      Registry.mem_symbolsOf, ← h.mem_append_iff, List.mem_append, Key, Member]
    tauto

theorem size_solveFirst (h : g.registry.Issued) :
    g.solveFirst.value.table.size =
      g.registry.size + 1 + if g.mentionsEndMarker then 1 else 0 := by
  obtain ⟨entries, h⟩ := h.exists_records
  have hsize : g.solveFirst.value.table.size = g.solveFirst.value.table.keys.length :=
    (List.length_map _).symm
  rw [hsize, keys_solveFirst h, h.size_eq]
  cases g.mentionsEndMarker <;> simp [Registry.symbolsOf]

/-- Members of a set are members of the grammar. -/
theorem holds_of_mem (hX : X.OfTerminals) (h : ∀ a ∈ X, a.id = 0 ∨ g.Letter a) : g.Holds X := by
  intro s hs
  have hmember : g.Member s := member_iff.mpr ⟨hX s hs, h s ⟨s, hs, rfl⟩⟩
  exact ⟨hmember, hmember.not_nonterminal⟩

/-- A member starts nothing but itself. -/
theorem find?_solveFirst_of_member (h : g.Member s) :
    g.solveFirst.value.table.find? s = some (.singleton s) := by
  obtain ⟨hk, hs⟩ := member_iff.mp h
  have hlisted : g.Listed s := Key.listed (.inl h)
  rw [find?_solveFirst hlisted, Option.some_inj]
  apply (g.ofTerminals_solveFirst.setOf s).eq_of_mem_iff (.singleton hk)
  intro a
  rw [SymbolSet.mem_singleton, solveFirst_table,
    mem_setOf_tableAfter_of_not_nonterminal h.not_nonterminal]
  exact and_iff_left hs

theorem find?_solveFirst_of_idle {n : Symbol} (hn : n ∈ g.registry.nonterminals)
    (h : g.productionsOf n = []) : g.solveFirst.value.table.find? n = some ∅ := by
  have hnonterminal : g.Nonterminal n := ⟨n, hn, rfl⟩
  rw [find?_solveFirst (.inr (.inr hnonterminal)), Option.some_inj]
  apply (g.ofTerminals_solveFirst.setOf n).eq_of_mem_iff .empty
  intro a
  rw [mem_setOf_solveFirst_of_nonterminal hnonterminal, h]
  simp

end Solution

/-- The table of an analysis lists the symbols of the registry and the reserved ones
in use, each once and under its own kind. Members stand for themselves, no set ever
holds a nonterminal or a wrong label, and what has no production starts nothing. -/
theorem analyze_shaped {b : Analysis} (hg : g.Assembled) (hb : g.analyze.value = .ok b) :
    g.Shaped b := by
  rw [(value_analyze.mp hb).2]
  have hfirst (α : List Symbol) : g.Holds (g.solveFirst.value.table.firstOf α) :=
    holds_of_mem (g.ofTerminals_solveFirst.firstOf α) fun _ => letter_of_mem_solveFirst
  refine ⟨?_, size_solveFirst hg.issued, fun _ => find?_solveFirst_of_member, ?_, hfirst,
    fun _ => find?_solveFirst_of_idle⟩
  · intro s
    change s ∈ g.solveFirst.value.table.keys ↔ g.Key s
    rw [solveFirst_table]
    exact mem_keys_tableAfter
  · intro n hn
    refine ⟨_, find?_solveFirst (.inr (.inr ⟨n, hn, rfl⟩)), ?_⟩
    apply holds_of_mem (g.ofTerminals_solveFirst.setOf n)
    intro a ha
    exact letter_of_mem_solveFirst (FirstTable.mem_firstOf_singleton.mpr ha)

/-- `S` stands for the empty string and the end marker, both labelled nonterminals. -/
def mislabelled : Grammar :=
  { repetition with
    productions := [⟨[⟨1, .nonterminal⟩], [⟨0, .nonterminal⟩, ⟨-1, .nonterminal⟩]⟩] }

/-- The labels of the production are not those of the table. -/
theorem analyze_shaped_mislabelled :
    mislabelled.Assembled ∧
      mislabelled.analyze.value = .ok ⟨mislabelled, mislabelled.solveFirst.value⟩ ∧
      .endMarker ∈ mislabelled.solveFirst.value.table.keys ∧
      ⟨-1, .nonterminal⟩ ∉ mislabelled.solveFirst.value.table.keys ∧
      mislabelled.solveFirst.value.table.size = 4 ∧
      mislabelled.solveFirst.value.table.find? ⟨-1, .nonterminal⟩ =
        some (.singleton .endMarker) ∧
      mislabelled.Holds (mislabelled.solveFirst.value.table.firstOf
        [⟨0, .nonterminal⟩, ⟨-1, .nonterminal⟩]) := by
  have hg : mislabelled.Assembled :=
    ⟨mislabelled.registry, mislabelled.productions, mislabelled.start,
      Registry.issued_ofList _, rfl⟩
  have ha : mislabelled.analyze.value = .ok ⟨mislabelled, mislabelled.solveFirst.value⟩ :=
    value_analyze.mpr ⟨by decide, rfl⟩
  have hshaped := analyze_shaped hg ha
  have hmember : mislabelled.Member .endMarker := .inr (.inr ⟨by decide, rfl⟩)
  refine ⟨hg, ha, (hshaped.keys _).mpr (.inl hmember), ?_, hshaped.size, ?_, hshaped.string _⟩
  · intro hkey
    have he : (⟨-1, .nonterminal⟩ : Symbol) = .endMarker :=
      ((hshaped.keys _).mp hkey).eq_of_id (.inl hmember) rfl
    cases he
  · have he : mislabelled.solveFirst.value.table.find? ⟨-1, .nonterminal⟩ =
        mislabelled.solveFirst.value.table.find? .endMarker := FirstTable.find?_congr _ rfl
    rw [he]
    exact hshaped.fixed _ hmember

end Grammar

end Lookahead
