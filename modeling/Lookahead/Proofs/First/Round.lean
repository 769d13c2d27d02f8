import Lookahead.First.Solution
import Lookahead.Proofs.First.Table
import Lookahead.Proofs.Grammar.Assembled

/-!
# One round over a table

The first table holds every letter, and the empty string, in its own set only;
a round adds to each nonterminal what the right sides of its productions can
start with. Both are stated by members (`mem_setOf_initialTable`,
`mem_setOf_nextTable`) and by listed symbols, and nothing later unfolds them.

A round loses nothing and keeps the order of tables, and it reads the empty
string and any one letter `a` off the previous table without looking at other
letters: `mem_setOf_nextTable_congr`.
-/
namespace Lookahead

namespace FirstTable

variable {t : FirstTable} {k a : Symbol}

/-- Extending by several sets lists their symbols. -/
theorem isSome_foldl_extend (sets : List (Symbol × SymbolSet)) :
    ((sets.foldl (fun u e => u.extend e.1 e.2) t).find? k).isSome ↔
      (t.find? k).isSome ∨ ∃ e ∈ sets, e.1.id = k.id := by
  induction sets generalizing t with
  | nil => simp
  | cons e sets ih =>
      rw [List.foldl_cons, ih, find?_extend, List.exists_mem_cons_iff]
      by_cases h : e.1.id = k.id <;> simp [h]

/-- Extending by several sets adds their members, each to its own symbol. -/
theorem mem_setOf_foldl_extend (sets : List (Symbol × SymbolSet)) :
    a ∈ (sets.foldl (fun u e => u.extend e.1 e.2) t).setOf k ↔
      a ∈ t.setOf k ∨ ∃ e ∈ sets, e.1.id = k.id ∧ a ∈ e.2 := by
  induction sets generalizing t with
  | nil => simp
  | cons e sets ih =>
      rw [List.foldl_cons, ih, List.exists_mem_cons_iff, ← or_assoc]
      apply or_congr_left
      rw [setOf, find?_extend]
      by_cases h : e.1.id = k.id
      · cases hk : t.find? k <;> simp [h, hk, setOf]
      · simp [h, setOf]

theorem find?_foldl_extend_of_ne {sets : List (Symbol × SymbolSet)}
    (h : ∀ e ∈ sets, e.1.id ≠ k.id) :
    (sets.foldl (fun u e => u.extend e.1 e.2) t).find? k = t.find? k := by
  induction sets generalizing t with
  | nil => rfl
  | cons e sets ih =>
      rw [List.foldl_cons, ih fun d hd => h d (List.mem_cons_of_mem e hd), find?_extend,
        if_neg (h e List.mem_cons_self)]

/-- A key is an old one or the one that was extended. -/
theorem mem_keys_extend {X : SymbolSet} {s : Symbol} (h : k ∈ (t.extend s X).keys) :
    k ∈ t.keys ∨ k = s := by
  obtain ⟨e, he, rfl⟩ := List.mem_map.mp h
  rcases Ascending.mem_place he with rfl | he | ⟨d, hd, rfl⟩
  · exact .inr rfl
  · exact .inl (List.mem_map_of_mem he)
  · exact .inl (List.mem_map.mpr ⟨d, hd, rfl⟩)

theorem mem_keys_foldl_extend {sets : List (Symbol × SymbolSet)}
    (h : k ∈ (sets.foldl (fun u e => u.extend e.1 e.2) t).keys) :
    k ∈ t.keys ∨ ∃ e ∈ sets, e.1 = k := by
  induction sets generalizing t with
  | nil => exact .inl h
  | cons e sets ih =>
      rw [List.exists_mem_cons_iff]
      rcases ih h with h | h
      · exact (mem_keys_extend h).imp_right fun hk => .inl hk.symm
      · exact .inr (.inr h)

end FirstTable

namespace Grammar

variable {g : Grammar} {t u : FirstTable} {s k a : Symbol}

/-- The identity of `s` is that of a nonterminal of the registry. -/
def Nonterminal (g : Grammar) (s : Symbol) : Prop := ∃ n ∈ g.registry.nonterminals, n.id = s.id

/-- The identity of `s` is that of a terminal of the registry, or of the end
marker when some right side mentions it. -/
def Letter (g : Grammar) (s : Symbol) : Prop :=
  (∃ t ∈ g.registry.terminals, t.id = s.id) ∨
    (g.mentionsEndMarker = true ∧ s.id = Symbol.endMarker.id)

/-- The symbols that the tables of a grammar list. -/
def Listed (g : Grammar) (s : Symbol) : Prop := s.id = 0 ∨ g.Letter s ∨ g.Nonterminal s

/-- The production `p` rewrites `s`, a nonterminal of the registry. -/
def Rewrites (g : Grammar) (s : Symbol) (p : Production) : Prop :=
  g.Nonterminal s ∧ p ∈ g.productionsOf s

theorem nonterminal_congr (h : s.id = k.id) : g.Nonterminal s ↔ g.Nonterminal k := by
  simp only [Nonterminal, h]

theorem letter_congr (h : s.id = k.id) : g.Letter s ↔ g.Letter k := by
  simp only [Letter, h]

theorem listed_congr (h : s.id = k.id) : g.Listed s ↔ g.Listed k := by
  simp only [Listed, h, letter_congr h, nonterminal_congr h]

theorem mem_productionsOf {p : Production} :
    p ∈ g.productionsOf s ↔ p ∈ g.productions ∧ ∃ k, p.lhs = [k] ∧ k.id = s.id := by
  simp only [productionsOf, List.mem_filter, Production.expands, Option.any_eq_true,
    Production.soleLhs?_eq_some, Symbol.same_iff]

theorem mem_productionsOf_iff_ids {p : Production} :
    p ∈ g.productionsOf s ↔ p ∈ g.productions ∧ p.lhs.map (·.id) = [s.id] := by
  simp only [mem_productionsOf, List.map_eq_singleton_iff]

theorem not_rewrites_of_eq_nil (h : g.productionsOf s = []) (p : Production) :
    ¬ g.Rewrites s p := by
  intro hp
  have hmem := hp.2
  rw [h] at hmem
  cases hmem

theorem mentionsEndMarker_iff_ids :
    g.mentionsEndMarker = true ↔
      ∃ p ∈ g.productions, Symbol.endMarker.id ∈ p.rhs.map (·.id) := by
  simp only [mentionsEndMarker, List.any_eq_true, Symbol.same_iff, List.mem_map]

theorem productionsOf_congr (h : s.id = k.id) : g.productionsOf s = g.productionsOf k := by
  simp only [productionsOf, Production.expands, Symbol.same, h]

theorem Nonterminal.id_pos (h : g.Nonterminal s) : 0 < s.id := by
  obtain ⟨n, hn, he⟩ := h
  rw [← he]
  exact (Registry.mem_nonterminals.mp hn).2.1

theorem Nonterminal.not_letter (h : g.Nonterminal s) : ¬ g.Letter s := by
  intro hl
  rcases hl with ⟨a, ha, hid⟩ | ⟨_, hid⟩
  · obtain ⟨n, hn, he⟩ := h
    exact Registry.id_ne_of_mem hn ha (he.trans hid.symm)
  · have h0 := h.id_pos
    rw [hid, Symbol.endMarker_id] at h0
    omega

section Initial

/-- The entries of the first table. -/
def initialSets (g : Grammar) : List (Symbol × SymbolSet) :=
  (Symbol.epsilon, .singleton .epsilon) ::
    (if g.mentionsEndMarker then [(Symbol.endMarker, .singleton .endMarker)] else []) ++
    g.registry.terminals.map (fun a => (a, .singleton a)) ++
    g.registry.nonterminals.map (·, ∅)

theorem initialTable_eq_foldl (g : Grammar) :
    g.initialTable = g.initialSets.foldl (fun t e => t.extend e.1 e.2) .empty := rfl

theorem exists_mem_initialSets {P : Symbol × SymbolSet → Prop} :
    (∃ e ∈ g.initialSets, P e) ↔
      P (.epsilon, .singleton .epsilon) ∨
        (∃ a ∈ g.registry.terminals, P (a, .singleton a)) ∨
        (g.mentionsEndMarker = true ∧ P (.endMarker, .singleton .endMarker)) ∨
        ∃ n ∈ g.registry.nonterminals, P (n, ∅) := by
  simp only [initialSets, List.mem_append, List.mem_cons, List.mem_map]
  constructor
  · intro h
    obtain ⟨e, ((rfl | he) | ⟨a, ha, rfl⟩) | ⟨n, hn, rfl⟩, h⟩ := h
    · exact .inl h
    · split at he
      next hm =>
        rw [List.mem_singleton] at he
        exact .inr (.inr (.inl ⟨hm, he ▸ h⟩))
      next => cases he
    · exact .inr (.inl ⟨a, ha, h⟩)
    · exact .inr (.inr (.inr ⟨n, hn, h⟩))
  · intro h
    rcases h with h | ⟨a, ha, h⟩ | ⟨hm, h⟩ | ⟨n, hn, h⟩
    · exact ⟨_, .inl (.inl (.inl rfl)), h⟩
    · exact ⟨_, .inl (.inr ⟨a, ha, rfl⟩), h⟩
    · exact ⟨_, .inl (.inl (.inr (by simp [hm]))), h⟩
    · exact ⟨_, .inr ⟨n, hn, rfl⟩, h⟩

theorem isSome_initialTable : (g.initialTable.find? s).isSome ↔ g.Listed s := by
  rw [initialTable_eq_foldl, FirstTable.isSome_foldl_extend, exists_mem_initialSets]
  simp only [FirstTable.find?_empty, Option.isSome_none, Bool.false_eq_true, false_or,
    Symbol.epsilon_id, Listed, Letter, Nonterminal, eq_comm (a := s.id), or_assoc]

/-- At first, a symbol holds at most itself. -/
theorem mem_setOf_initialTable :
    a ∈ g.initialTable.setOf s ↔ a.id = s.id ∧ (s.id = 0 ∨ g.Letter s) := by
  rw [initialTable_eq_foldl, FirstTable.mem_setOf_foldl_extend, exists_mem_initialSets]
  simp only [FirstTable.setOf, FirstTable.find?_empty, Option.getD_none, SymbolSet.notMem_empty,
    SymbolSet.mem_singleton, false_or, and_false, exists_false, or_false, Letter]
  constructor
  · intro h
    rcases h with ⟨hs, ha⟩ | ⟨b, hb, hs, ha⟩ | ⟨hm, hs, ha⟩
    · exact ⟨ha.trans hs, .inl hs.symm⟩
    · exact ⟨ha.trans hs, .inr (.inl ⟨b, hb, hs⟩)⟩
    · exact ⟨ha.trans hs, .inr (.inr ⟨hm, hs.symm⟩)⟩
  · intro h
    obtain ⟨ha, hs | ⟨b, hb, hs⟩ | ⟨hm, hs⟩⟩ := h
    · exact .inl ⟨hs.symm, ha.trans hs⟩
    · exact .inr (.inl ⟨b, hb, hs, ha.trans hs.symm⟩)
    · exact .inr (.inr ⟨hm, hs.symm, ha.trans hs⟩)

end Initial

section Next

theorem mem_firstOfRightSides :
    a ∈ g.firstOfRightSides t s ↔ ∃ p ∈ g.productionsOf s, a ∈ t.firstOf p.rhs := by
  have h (l : List Production) (X : SymbolSet) :
      a ∈ l.foldl (fun X p => X ∪ t.firstOf p.rhs) X ↔ a ∈ X ∨ ∃ p ∈ l, a ∈ t.firstOf p.rhs := by
    induction l generalizing X with
    | nil => simp
    | cons p l ih =>
        rw [List.foldl_cons, ih, SymbolSet.mem_union, List.exists_mem_cons_iff, or_assoc]
  unfold firstOfRightSides
  rw [h]
  simp

theorem nextTable_eq_foldl (g : Grammar) (t : FirstTable) :
    g.nextTable t =
      (g.registry.nonterminals.map fun n => (n, g.firstOfRightSides t n)).foldl
        (fun u e => u.extend e.1 e.2) t := by
  rw [List.foldl_map]
  rfl

theorem isSome_nextTable :
    ((g.nextTable t).find? s).isSome ↔ (t.find? s).isSome ∨ g.Nonterminal s := by
  rw [nextTable_eq_foldl, FirstTable.isSome_foldl_extend]
  simp [Nonterminal]

/-- A round brings in no key but the nonterminals of the registry. -/
theorem mem_keys_nextTable (h : k ∈ (g.nextTable t).keys) :
    k ∈ t.keys ∨ k ∈ g.registry.nonterminals := by
  rw [nextTable_eq_foldl] at h
  refine (FirstTable.mem_keys_foldl_extend h).imp_right fun hk => ?_
  obtain ⟨e, he, rfl⟩ := hk
  obtain ⟨n, hn, rfl⟩ := List.mem_map.mp he
  exact hn

/-- A round adds to a nonterminal what the right sides of its productions start with. -/
theorem mem_setOf_nextTable :
    a ∈ (g.nextTable t).setOf s ↔
      a ∈ t.setOf s ∨ ∃ p, g.Rewrites s p ∧ a ∈ t.firstOf p.rhs := by
  rw [nextTable_eq_foldl, FirstTable.mem_setOf_foldl_extend]
  apply or_congr_right
  simp only [List.mem_map, Rewrites, Nonterminal]
  constructor
  · intro h
    obtain ⟨_, ⟨n, hn, rfl⟩, he, ha⟩ := h
    obtain ⟨p, hp, ha⟩ := mem_firstOfRightSides.mp ha
    exact ⟨p, ⟨⟨n, hn, he⟩, productionsOf_congr he ▸ hp⟩, ha⟩
  · intro h
    obtain ⟨p, ⟨⟨n, hn, he⟩, hp⟩, ha⟩ := h
    refine ⟨(n, g.firstOfRightSides t n), ⟨n, hn, rfl⟩, he, ?_⟩
    exact mem_firstOfRightSides.mpr ⟨p, productionsOf_congr he ▸ hp, ha⟩

theorem le_nextTable (g : Grammar) (t : FirstTable) : t ≤ g.nextTable t := by
  rw [FirstTable.le_iff]
  intro s
  exact ⟨fun h => isSome_nextTable.mpr (.inl h), fun a ha => mem_setOf_nextTable.mpr (.inl ha)⟩

theorem nextTable_mono (g : Grammar) (h : t ≤ u) : g.nextTable t ≤ g.nextTable u := by
  rw [FirstTable.le_iff]
  intro s
  obtain ⟨hk, hs⟩ := FirstTable.le_iff.mp h s
  constructor
  · rw [isSome_nextTable, isSome_nextTable]
    exact Or.imp_left hk
  · intro a ha
    rw [mem_setOf_nextTable] at ha ⊢
    rcases ha with ha | ⟨p, hp, ha⟩
    · exact .inl (hs a ha)
    · exact .inr ⟨p, hp, FirstTable.firstOf_mono (FirstTable.setOf_subset_of_le h) _ a ha⟩

/-- Where two tables agree on the empty string and on `a`, so do the tables after them. -/
theorem mem_setOf_nextTable_congr
    (h0 : ∀ s : Symbol, .epsilon ∈ t.setOf s ↔ .epsilon ∈ u.setOf s)
    (ha : ∀ s : Symbol, a ∈ t.setOf s ↔ a ∈ u.setOf s) (s : Symbol) :
    a ∈ (g.nextTable t).setOf s ↔ a ∈ (g.nextTable u).setOf s := by
  simp only [mem_setOf_nextTable, ha s, FirstTable.mem_firstOf_congr h0 ha]

/-- Whatever the tables, the larger one reads no less off a string, even where only the
walk through the smaller one stops early. A round loses nothing, lists nothing new but
nonterminals of the registry, and keeps the order of the two. -/
theorem nextTable_inflationary_monotone (g : Grammar) (h : t ≤ u) :
    (∀ α, t.firstOf α ⊆ u.firstOf α) ∧
      t ≤ g.nextTable t ∧
      (∀ k ∈ (g.nextTable t).keys, k ∈ t.keys ∨ k ∈ g.registry.nonterminals) ∧
      g.nextTable t ≤ g.nextTable u := by
  refine ⟨?_, g.le_nextTable t, fun _ => mem_keys_nextTable, g.nextTable_mono h⟩
  exact FirstTable.firstOf_mono (FirstTable.setOf_subset_of_le h)

/-- `S` starts nothing yet, and `a` is not listed. -/
def unread : FirstTable := .ofList [(⟨1, .nonterminal⟩, ∅)]

/-- `S` can vanish, and `a` is listed. -/
def halfRead : FirstTable :=
  .ofList [(⟨1, .nonterminal⟩, .singleton .epsilon), (⟨2, .terminal⟩, .singleton ⟨2, .terminal⟩)]

/-- The walk along `S a` stops at `S` in the first table and goes on in the second. -/
theorem nextTable_inflationary_monotone_halfRead :
    unread ≤ halfRead ∧
      unread.firstOf [⟨1, .nonterminal⟩, ⟨2, .terminal⟩] = ∅ ∧
      halfRead.firstOf [⟨1, .nonterminal⟩, ⟨2, .terminal⟩] = .singleton ⟨2, .terminal⟩ ∧
      repetition.nextTable unread ≤ repetition.nextTable halfRead := by
  have h : unread ≤ halfRead := by
    intro s X hX
    obtain ⟨e, he, hid, rfl⟩ := FirstTable.find?_eq_some_iff.mp hX
    obtain rfl : e = (⟨1, .nonterminal⟩, ∅) := List.mem_singleton.mp he
    refine ⟨.singleton .epsilon, ?_, fun a ha => absurd ha (SymbolSet.notMem_empty a)⟩
    rw [← halfRead.find?_congr hid]
    rfl
  exact ⟨h, by decide, by decide, (repetition.nextTable_inflationary_monotone h).2.2.2⟩

end Next

end Grammar

end Lookahead
