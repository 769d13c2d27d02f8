import Lookahead.Proofs.First.Covered

/-!
# The empty string written out

A right side can mention the empty string anywhere: in front, between other symbols,
at the end, several times over. Its set holds nothing but itself in every table, so a
walk along a string passes over it, and strings that differ in nothing else start
alike (`FirstTable.Bare.mem_firstOf_congr`). Grammars whose productions differ in
nothing else therefore have the same members in every round (`Respelled.mem_setOf_tableAfter`),
and the same solution after as many rounds.
-/
namespace Lookahead

/-- The identities of a string from which every empty string is deleted. -/
def Symbol.visible (α : List Symbol) : List ℤ := (α.filter fun s => !s.isEpsilon).map (·.id)

/-- The identities of both sides, with every empty string deleted from the right one. -/
def Production.visibleIds (p : Production) : List ℤ × List ℤ :=
  (p.lhs.map (·.id), Symbol.visible p.rhs)

theorem Symbol.mem_visible {i : ℤ} {α : List Symbol} :
    i ∈ Symbol.visible α ↔ i ≠ 0 ∧ i ∈ α.map (·.id) := by
  simp only [Symbol.visible, List.mem_map, List.mem_filter, Bool.not_eq_true', Bool.eq_false_iff,
    ne_eq, Symbol.isEpsilon_iff]
  constructor
  · intro h
    obtain ⟨s, hs, rfl⟩ := h
    exact ⟨hs.2, s, hs.1, rfl⟩
  · intro h
    obtain ⟨h0, s, hs, rfl⟩ := h
    exact ⟨s, ⟨hs, h0⟩, rfl⟩

namespace FirstTable

variable {t u : FirstTable} {a : Symbol} {α β : List Symbol}

/-- The empty string starts with itself and nothing else. -/
def Bare (t : FirstTable) : Prop := ∀ a, a ∈ t.setOf .epsilon ↔ a.id = 0

/-- The walk passes over every empty string. -/
theorem Bare.mem_firstOf_filter (h : t.Bare) :
    a ∈ t.firstOf (α.filter fun s => !s.isEpsilon) ↔ a ∈ t.firstOf α := by
  induction α with
  | nil => exact Iff.rfl
  | cons s α ih =>
      cases hs : s.isEpsilon with
      | true =>
          have hset : t.setOf s = t.setOf .epsilon := t.setOf_congr (Symbol.isEpsilon_iff.mp hs)
          rw [List.filter_cons_of_neg (by simp [hs]), ih, mem_firstOf_cons, hset, h, h]
          simp
      | false =>
          rw [List.filter_cons_of_pos (by simp [hs]), mem_firstOf_cons, mem_firstOf_cons, ih]

theorem Bare.mem_firstOf_congr (h : t.Bare) (hv : Symbol.visible α = Symbol.visible β) :
    a ∈ t.firstOf α ↔ a ∈ t.firstOf β := by
  rw [← h.mem_firstOf_filter, t.firstOf_congr hv, h.mem_firstOf_filter]

theorem entries_eq_map_keys (t : FirstTable) : t.entries = t.keys.map fun k => (k, t.setOf k) := by
  have hset : ∀ e ∈ t.entries, (e.1, t.setOf e.1) = e := by
    intro e he
    rw [setOf_of_find? (find?_eq_some_iff.mpr ⟨e, he, rfl, rfl⟩)]
  rw [keys, List.map_map]
  exact (List.map_congr_left hset).trans (List.map_id _) |>.symm

/-- A table is determined by its keys and what they find. -/
theorem eq_of_find? (hk : ∀ s, s ∈ t.keys ↔ s ∈ u.keys) (hf : ∀ s, t.find? s = u.find? s) :
    t = u := by
  have hkeys : t.keys = u.keys :=
    Ascending.eq_of_mem_iff Symbol.id t.pairwise_keys u.pairwise_keys hk
  have hset : t.setOf = u.setOf := by
    funext s
    rw [setOf, setOf, hf]
  have hentries : t.entries = u.entries := by
    rw [t.entries_eq_map_keys, u.entries_eq_map_keys, hkeys, hset]
  cases t
  cases u
  cases hentries
  rfl

end FirstTable

namespace Grammar

variable {g g' : Grammar} {s a : Symbol} {k : ℕ}

/-- Both grammars have the same productions but for the empty strings written on their
right sides. The order of the productions and their repetition play no part. -/
structure Respelled (g g' : Grammar) : Prop where
  registry : g'.registry = g.registry
  productions : ∀ i, i ∈ g.productions.map Production.visibleIds ↔
    i ∈ g'.productions.map Production.visibleIds

theorem bare_tableAfter (g : Grammar) (k : ℕ) : (g.tableAfter k).Bare := by
  intro a
  have hno : ¬ g.Nonterminal .epsilon := fun hn => hn.id_pos.ne rfl
  rw [mem_setOf_tableAfter_of_not_nonterminal hno]
  exact and_iff_left (.inl rfl)

theorem bare_solveFirst (g : Grammar) : g.solveFirst.value.table.Bare := by
  rw [solveFirst_table]
  exact g.bare_tableAfter _

/-- Grammars with the same keys and the same members have the same table, labels included. -/
theorem table_solveFirst_congr (hk : ∀ s, g'.Key s ↔ g.Key s) (hl : ∀ s, g'.Listed s ↔ g.Listed s)
    (hm : ∀ s a : Symbol, a ∈ g'.solveFirst.value.table.setOf s ↔
      a ∈ g.solveFirst.value.table.setOf s) :
    g'.solveFirst.value.table = g.solveFirst.value.table := by
  apply FirstTable.eq_of_find?
  · intro s
    rw [mem_keys_solveFirst, mem_keys_solveFirst, hk]
  · intro s
    exact find?_solveFirst_congr (hl s) (hm s)

namespace Respelled

variable (h : g.Respelled g')
include h

theorem symm : g'.Respelled g where
  registry := h.registry.symm
  productions i := (h.productions i).symm

theorem exists_production {p : Production} (hp : p ∈ g.productions) :
    ∃ q ∈ g'.productions, q.lhs.map (·.id) = p.lhs.map (·.id) ∧
      Symbol.visible q.rhs = Symbol.visible p.rhs := by
  obtain ⟨q, hq, he⟩ := List.mem_map.mp ((h.productions _).mp (List.mem_map_of_mem hp))
  exact ⟨q, hq, congrArg Prod.fst he, congrArg Prod.snd he⟩

theorem exists_rewrites {p : Production} (hp : g.Rewrites s p) :
    ∃ q, g'.Rewrites s q ∧ Symbol.visible q.rhs = Symbol.visible p.rhs := by
  obtain ⟨hmem, hlhs⟩ := mem_productionsOf_iff_ids.mp hp.2
  obtain ⟨q, hq, hl, hr⟩ := h.exists_production hmem
  have hs : q ∈ g'.productionsOf s := mem_productionsOf_iff_ids.mpr ⟨hq, hl.trans hlhs⟩
  exact ⟨q, ⟨nonterminal_of_registry_eq h.registry hp.1, hs⟩, hr⟩

theorem mentionsEndMarker (hm : g.mentionsEndMarker = true) : g'.mentionsEndMarker = true := by
  rw [mentionsEndMarker_iff_ids] at hm ⊢
  obtain ⟨p, hp, hm⟩ := hm
  obtain ⟨q, hq, _, hr⟩ := h.exists_production hp
  have hvisible : Symbol.endMarker.id ∈ Symbol.visible p.rhs :=
    Symbol.mem_visible.mpr ⟨by decide, hm⟩
  rw [← hr] at hvisible
  exact ⟨q, hq, (Symbol.mem_visible.mp hvisible).2⟩

theorem letter (hs : g.Letter s) : g'.Letter s :=
  letter_of_registry_eq h.registry (fun _ => h.mentionsEndMarker) hs

theorem setOf_tableAfter_subset (k : ℕ) (s : Symbol) :
    (g.tableAfter k).setOf s ⊆ (g'.tableAfter k).setOf s := by
  induction k generalizing s with
  | zero =>
      intro a ha
      rw [tableAfter_zero, mem_setOf_initialTable] at ha ⊢
      exact ⟨ha.1, ha.2.imp_right h.letter⟩
  | succ k ih =>
      intro a ha
      rw [mem_setOf_tableAfter_succ] at ha ⊢
      cases ha with
      | inl ha => exact .inl (ih s a ha)
      | inr ha =>
          obtain ⟨p, hp, ha⟩ := ha
          obtain ⟨q, hq, hv⟩ := h.exists_rewrites hp
          have hrhs : a ∈ (g'.tableAfter k).firstOf p.rhs := FirstTable.firstOf_mono ih p.rhs a ha
          exact .inr ⟨q, hq, ((g'.bare_tableAfter k).mem_firstOf_congr hv).mpr hrhs⟩

/-- Every round finds the same. -/
theorem mem_setOf_tableAfter : a ∈ (g'.tableAfter k).setOf s ↔ a ∈ (g.tableAfter k).setOf s :=
  ⟨h.symm.setOf_tableAfter_subset k s a, h.setOf_tableAfter_subset k s a⟩

theorem rounds_eq : g'.solveFirst.value.rounds = g.solveFirst.value.rounds := by
  apply rounds_eq_of_same_iff
  intro k
  rw [same_tableAfter_iff, same_tableAfter_iff]
  simp only [h.mem_setOf_tableAfter]

theorem table_eq : g'.solveFirst.value.table = g.solveFirst.value.table := by
  have hk (s : Symbol) : g'.Key s ↔ g.Key s :=
    ⟨key_of_registry_eq h.registry.symm h.symm.mentionsEndMarker,
      key_of_registry_eq h.registry h.mentionsEndMarker⟩
  have hl (s : Symbol) : g'.Listed s ↔ g.Listed s :=
    ⟨listed_of_registry_eq h.registry.symm h.symm.mentionsEndMarker,
      listed_of_registry_eq h.registry h.mentionsEndMarker⟩
  apply table_solveFirst_congr hk hl
  intro s a
  rw [mem_solveFirst_iff_exists, mem_solveFirst_iff_exists]
  simp only [h.mem_setOf_tableAfter]

theorem solveFirst_eq : g'.solveFirst.value = g.solveFirst.value := by
  calc g'.solveFirst.value
      = ⟨g'.solveFirst.value.table, g'.solveFirst.value.rounds⟩ := rfl
    _ = ⟨g.solveFirst.value.table, g.solveFirst.value.rounds⟩ := by rw [h.table_eq, h.rounds_eq]
    _ = g.solveFirst.value := rfl

end Respelled

/-- Where the empty string is written out plays no part, in the productions of a grammar
and in a string that is looked up. -/
theorem analyze_respelled :
    (∀ (g g' : Grammar) (b b' : Analysis), g.Respelled g' → g.analyze.value = .ok b →
        g'.analyze.value = .ok b' → b'.first = b.first) ∧
      ∀ (g : Grammar) (b : Analysis), g.analyze.value = .ok b →
        ∀ α β, Symbol.visible α = Symbol.visible β → b.firstOf α = b.firstOf β := by
  constructor
  · intro g g' b b' h hb hb'
    rw [(value_analyze.mp hb).2, (value_analyze.mp hb').2]
    exact h.solveFirst_eq
  · intro g b hb α β hv
    rw [(value_analyze.mp hb).2]
    have hα := g.ofTerminals_solveFirst.firstOf α
    apply hα.eq_of_mem_iff (g.ofTerminals_solveFirst.firstOf β)
    intro a
    exact g.bare_solveFirst.mem_firstOf_congr hv

/-- `repetition` with the empty string all over its right sides, once labelled a
nonterminal, and with its productions the other way round. -/
def repetitionPadded : Grammar :=
  { repetition with
    productions :=
      [⟨[⟨1, .nonterminal⟩], [.epsilon, .epsilon]⟩,
        ⟨[⟨1, .nonterminal⟩],
          [.epsilon, ⟨1, .nonterminal⟩, ⟨0, .nonterminal⟩, ⟨2, .terminal⟩, .epsilon]⟩] }

theorem respelled_repetition : repetition.Respelled repetitionPadded where
  registry := rfl
  productions i := by
    have h : repetition.productions.map Production.visibleIds = [([1], [1, 2]), ([1], [])] := by
      decide
    have h' : repetitionPadded.productions.map Production.visibleIds =
        [([1], []), ([1], [1, 2])] := by decide
    rw [h, h']
    simp only [List.mem_cons, List.not_mem_nil]
    tauto

/-- Both find `a` and the empty string for `S`, in three rounds. -/
theorem analyze_respelled_repetition :
    repetition.Respelled repetitionPadded ∧
      repetition.analyze.value = .ok ⟨repetition, repetition.solveFirst.value⟩ ∧
      repetitionPadded.analyze.value =
        .ok ⟨repetitionPadded, repetitionPadded.solveFirst.value⟩ ∧
      repetitionPadded.solveFirst.value = repetition.solveFirst.value ∧
      repetition.solveFirst.value.rounds = 3 ∧
      repetition.solveFirst.value.table.firstOf [.epsilon, ⟨2, .terminal⟩, ⟨0, .nonterminal⟩] =
        repetition.solveFirst.value.table.firstOf [⟨2, .terminal⟩] := by
  have ha : repetition.analyze.value = .ok ⟨repetition, repetition.solveFirst.value⟩ :=
    value_analyze.mpr ⟨by decide, rfl⟩
  have ha' : repetitionPadded.analyze.value =
      .ok ⟨repetitionPadded, repetitionPadded.solveFirst.value⟩ :=
    value_analyze.mpr ⟨by decide, rfl⟩
  have hfirst := analyze_respelled.1 _ _ _ _ respelled_repetition ha ha'
  exact ⟨respelled_repetition, ha, ha', hfirst, by decide,
    analyze_respelled.2 _ _ ha _ _ (by decide)⟩

end Grammar

end Lookahead
