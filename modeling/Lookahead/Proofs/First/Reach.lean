import Lookahead.Proofs.First.Covered
import Mathlib.Logic.Relation

/-!
# What a nonterminal depends on

A nonterminal calls the nonterminals on the right of its productions and reaches
whatever repeated calls lead to. Its set is computed in the region of what it
reaches and what stands on the right there, so two grammars with the same
productions for everything that it reaches find the same set for it, whatever else
is in them and however long their rounds go on about it.

Agreement on what is reached carries over to the other grammar (`AgreesFrom.symm`),
which then reaches the same, so the comparison of one direction is enough.
-/
namespace Lookahead.Grammar

variable {g g' : Grammar} {n m s : Symbol} {p : Production}

/-- The identity of `s` stands on the right of a production of `m`. -/
def Uses (g : Grammar) (m s : Symbol) : Prop := ∃ p, g.Rewrites m p ∧ s.id ∈ p.rhs.map (·.id)

def Calls (g : Grammar) (m s : Symbol) : Prop := g.Uses m s ∧ g.Nonterminal s

def Reaches (g : Grammar) : Symbol → Symbol → Prop := Relation.ReflTransGen g.Calls

/-- What `n` reaches, and all that stands on the right there. -/
def region (g : Grammar) (n : Symbol) : Set Symbol :=
  {s | g.Reaches n s ∨ ∃ m, g.Reaches n m ∧ g.Uses m s}

/-- Both grammars have the same productions, as a set, for every nonterminal that `n`
reaches in the first. -/
structure AgreesFrom (n : Symbol) (g g' : Grammar) : Prop where
  registry : g'.registry = g.registry
  productions : ∀ m, g.Reaches n m → ∀ i, i ∈ (g.productionsOf m).map Production.ids ↔
    i ∈ (g'.productionsOf m).map Production.ids

theorem Reaches.nonterminal (hn : g.Nonterminal n) (h : g.Reaches n m) : g.Nonterminal m := by
  cases h with
  | refl => exact hn
  | tail _ hc => exact hc.2

/-- A set that calls do not leave holds all that is reached from it. -/
theorem Reaches.mem (D : Set Symbol) (h : g.Reaches n m)
    (hD : ∀ k ∈ D, ∀ s, g.Calls k s → s ∈ D) (hn : n ∈ D) : m ∈ D := by
  induction h with
  | refl => exact hn
  | tail _ hc ih => exact hD _ ih _ hc

/-- A nonterminal of the region is reached. -/
theorem reaches_of_mem_region (hs : s ∈ g.region n) (h : g.Nonterminal s) : g.Reaches n s := by
  rcases hs with hs | ⟨m, hm, hu⟩
  · exact hs
  · exact hm.tail ⟨hu, h⟩

namespace AgreesFrom

variable (h : AgreesFrom n g g')
include h

theorem exists_rewrites (hm : g.Reaches n m) (hp : g.Rewrites m p) :
    ∃ q, g'.Rewrites m q ∧ q.ids = p.ids := by
  have hmem : p.ids ∈ (g'.productionsOf m).map Production.ids :=
    (h.productions m hm p.ids).mp (List.mem_map_of_mem hp.2)
  exact exists_rewrites_of_ids h.registry hmem hp

theorem uses (hm : g.Reaches n m) (hu : g'.Uses m s) : g.Uses m s := by
  obtain ⟨p, hp, hs⟩ := hu
  have hmem : p.ids ∈ (g.productionsOf m).map Production.ids :=
    (h.productions m hm p.ids).mpr (List.mem_map_of_mem hp.2)
  obtain ⟨q, hq, hids⟩ := exists_rewrites_of_ids h.registry.symm hmem hp
  have hrhs : q.rhs.map (·.id) = p.rhs.map (·.id) := congrArg Prod.snd hids
  exact ⟨q, hq, hrhs ▸ hs⟩

theorem reaches (hm : g'.Reaches n m) : g.Reaches n m := by
  induction hm with
  | refl => exact .refl
  | tail _ hc ih =>
      exact ih.tail ⟨h.uses ih hc.1, nonterminal_of_registry_eq h.registry.symm hc.2⟩

theorem symm : AgreesFrom n g' g where
  registry := h.registry.symm
  productions m hm i := (h.productions m (h.reaches hm) i).symm

/-- A letter of the region is a letter of the other grammar: the end marker stands on
the right of a production there, which both have. -/
theorem letter (hn : g.Nonterminal n) (hs : s ∈ g.region n) (hl : g.Letter s) : g'.Letter s := by
  apply letter_of_registry_eq h.registry _ hl
  intro hid _
  rcases hs with hs | ⟨m, hm, p, hp, hs⟩
  · exact absurd hl (hs.nonterminal hn).not_letter
  · obtain ⟨q, hq, hids⟩ := h.exists_rewrites hm hp
    have hrhs : q.rhs.map (·.id) = p.rhs.map (·.id) := congrArg Prod.snd hids
    rw [← hrhs, hid] at hs
    exact mentionsEndMarker_iff_ids.mpr ⟨q, (mem_productionsOf.mp hq.2).1, hs⟩

theorem coveredOn (hn : g.Nonterminal n) : CoveredOn (g.region n) g g' where
  letter _ hs := h.letter hn hs
  rewrites s hs p hp := by
    obtain ⟨q, hq, hids⟩ := h.exists_rewrites (reaches_of_mem_region hs hp.1) hp
    exact ⟨q, hq, congrArg Prod.snd hids⟩
  closed s hs p hp k hk :=
    .inr ⟨s, reaches_of_mem_region hs hp.1, p, hp, List.mem_map_of_mem hk⟩

theorem find?_solveFirst_eq (hn : g.Nonterminal n) :
    g'.solveFirst.value.table.find? n = g.solveFirst.value.table.find? n := by
  have hn' : g'.Nonterminal n := nonterminal_of_registry_eq h.registry hn
  have hlisted : g'.Listed n ↔ g.Listed n := iff_of_true (.inr (.inr hn')) (.inr (.inr hn))
  have hcovered : CoveredOn (g.region n) g g' := h.coveredOn hn
  exact hcovered.find?_solveFirst_eq (h.symm.coveredOn hn') (.inl .refl) (.inl .refl) hlisted

end AgreesFrom

/-- What an analysis finds for a nonterminal depends on the productions of the
nonterminals that it reaches and on nothing else. -/
theorem analyze_agreesFrom {b b' : Analysis} (hb : g.analyze.value = .ok b)
    (hb' : g'.analyze.value = .ok b') (hn : n ∈ g.registry.nonterminals)
    (h : AgreesFrom n g g') :
    (∃ X, b.firstSet? n = some X ∧ b'.firstSet? n = some X) ∧
      b'.isNullable n = b.isNullable n := by
  rw [(value_analyze.mp hb).2, (value_analyze.mp hb').2]
  have hnonterminal : g.Nonterminal n := ⟨n, hn, rfl⟩
  have heq := h.find?_solveFirst_eq hnonterminal
  have hset : g.solveFirst.value.table.find? n = some (g.solveFirst.value.table.setOf n) :=
    find?_solveFirst (.inr (.inr hnonterminal))
  refine ⟨⟨_, hset, heq.trans hset⟩, ?_⟩
  change (g'.solveFirst.value.table.find? n).any _ = (g.solveFirst.value.table.find? n).any _
  rw [heq]

/-- `repetition` with `A → S` in front, where the end marker follows the `S`. -/
def repetitionBelow : Grammar where
  registry :=
    (Registry.ofList [("S", .nonterminal), ("a", .terminal), ("A", .nonterminal)]).value
  productions := ⟨[⟨3, .nonterminal⟩], [⟨1, .nonterminal⟩, .endMarker]⟩ :: repetition.productions
  start := ⟨3, .nonterminal⟩

/-- The same productions for `S` in another order, one of them twice, and `A → A a`. -/
def repetitionBeside : Grammar where
  registry := repetitionBelow.registry
  productions :=
    [.vanishing ⟨1, .nonterminal⟩, ⟨[⟨3, .nonterminal⟩], [⟨3, .nonterminal⟩, ⟨2, .terminal⟩]⟩,
      ⟨[⟨1, .nonterminal⟩], [⟨1, .nonterminal⟩, ⟨2, .terminal⟩]⟩, .vanishing ⟨1, .nonterminal⟩]
  start := ⟨1, .nonterminal⟩

theorem agreesFrom_repetition :
    AgreesFrom ⟨1, .nonterminal⟩ repetitionBelow repetitionBeside where
  registry := rfl
  productions m hm i := by
    -- `S` reaches nothing but itself.
    have hclosed : ∀ p ∈ repetitionBelow.productionsOf ⟨1, .nonterminal⟩,
        ∀ j ∈ p.rhs.map (·.id), ∀ k ∈ repetitionBelow.registry.nonterminals, k.id = j → j = 1 := by
      decide
    have hid : m ∈ {k : Symbol | k.id = 1} := by
      refine hm.mem _ ?_ rfl
      intro k hk s hc
      obtain ⟨⟨p, hp, hs⟩, l, hl, he⟩ := hc
      have hp : p ∈ repetitionBelow.productionsOf ⟨1, .nonterminal⟩ :=
        productionsOf_congr (k := ⟨1, .nonterminal⟩) hk ▸ hp.2
      exact hclosed p hp s.id hs l hl he
    have h : (repetitionBelow.productionsOf ⟨1, .nonterminal⟩).map Production.ids =
        [([1], [1, 2]), ([1], [0])] := by decide
    have h' : (repetitionBeside.productionsOf ⟨1, .nonterminal⟩).map Production.ids =
        [([1], [0]), ([1], [1, 2]), ([1], [0])] := by decide
    rw [productionsOf_congr (k := ⟨1, .nonterminal⟩) hid,
      productionsOf_congr (k := ⟨1, .nonterminal⟩) hid, h, h']
    simp only [List.mem_cons, List.not_mem_nil]
    tauto

/-- Only the first grammar knows the end marker, and its rounds take longer. -/
theorem analyze_agreesFrom_repetition :
    repetitionBelow.analyze.value = .ok ⟨repetitionBelow, repetitionBelow.solveFirst.value⟩ ∧
      repetitionBeside.analyze.value =
        .ok ⟨repetitionBeside, repetitionBeside.solveFirst.value⟩ ∧
      ⟨1, .nonterminal⟩ ∈ repetitionBelow.registry.nonterminals ∧
      AgreesFrom ⟨1, .nonterminal⟩ repetitionBelow repetitionBeside ∧
      repetitionBelow.solveFirst.value.rounds = 4 ∧
      repetitionBeside.solveFirst.value.rounds = 3 ∧
      ∃ X, repetitionBelow.solveFirst.value.table.find? ⟨1, .nonterminal⟩ = some X ∧
        repetitionBeside.solveFirst.value.table.find? ⟨1, .nonterminal⟩ = some X := by
  have hb : repetitionBelow.analyze.value =
      .ok ⟨repetitionBelow, repetitionBelow.solveFirst.value⟩ := value_analyze.mpr ⟨by decide, rfl⟩
  have hb' : repetitionBeside.analyze.value =
      .ok ⟨repetitionBeside, repetitionBeside.solveFirst.value⟩ :=
    value_analyze.mpr ⟨by decide, rfl⟩
  have hn : (⟨1, .nonterminal⟩ : Symbol) ∈ repetitionBelow.registry.nonterminals := by decide
  have hset := analyze_agreesFrom hb hb' hn agreesFrom_repetition
  exact ⟨hb, hb', hn, agreesFrom_repetition, by decide, by decide, hset.1⟩

end Lookahead.Grammar
