import Lookahead.Analysis
import Lookahead.Proofs.Registry.Issued

/-!
# Assembled grammars

Every grammar comes out of `assemble`, over a registry that issued its names one
by one. The checks leave it with productions whose symbols the registry knows:
issued ones under their own kind, and reserved ones. An analysis is the grammar
next to its solution.
-/
namespace Lookahead

namespace Grammar

variable {g : Grammar} {r : Registry} {productions : List Production} {start : Symbol}

/-- The production has both sides, and the registry knows the symbols on them. -/
def Sound (r : Registry) (p : Production) : Prop :=
  p.lhs ≠ [] ∧ p.rhs ≠ [] ∧ ∀ s ∈ p.lhs ++ p.rhs, r.contains s = true

theorem productionFault?_eq_none {p : Production} {index : Nat} :
    productionFault? r p index = none ↔ Sound r p := by
  unfold Sound
  unfold productionFault?
  split
  next hl => simp [List.isEmpty_iff.mp hl]
  next hl =>
    split
    next hr => simp [List.isEmpty_iff.mp hr]
    next hr =>
      rw [List.isEmpty_iff] at hl hr
      simp only [Option.map_eq_none_iff, List.find?_eq_none, Bool.not_eq_true', Bool.not_eq_false]
      constructor
      · intro h
        exact ⟨hl, hr, h⟩
      · intro h
        exact h.2.2

theorem findSome?_productionFault?_eq_none :
    (productions.zipIdx.findSome? fun (p, index) => productionFault? r p index) = none ↔
      ∀ p ∈ productions, Sound r p := by
  rw [List.findSome?_eq_none_iff]
  constructor
  · intro h p hp
    obtain ⟨index, hi⟩ := List.mem_iff_getElem?.mp hp
    have he : productionFault? r p index = none :=
      h (p, index) (List.mk_mem_zipIdx_iff_getElem?.mpr hi)
    exact productionFault?_eq_none.mp he
  · intro h e he
    have hp : e.1 ∈ productions :=
      List.mem_iff_getElem?.mpr ⟨e.2, List.mem_zipIdx_iff_getElem?.mp he⟩
    exact productionFault?_eq_none.mpr (h e.1 hp)

theorem fault?_eq_none :
    fault? r productions start = none ↔
      (∀ p ∈ productions, Sound r p) ∧ startFault? r start = none := by
  unfold Grammar.fault?
  rw [Option.or_eq_none_iff, findSome?_productionFault?_eq_none]

/-- With nothing wrong in the productions, only the start is left to find fault with. -/
theorem fault?_eq_startFault? (h : ∀ p ∈ productions, Sound r p) :
    fault? r productions start = startFault? r start := by
  unfold Grammar.fault?
  rw [findSome?_productionFault?_eq_none.mpr h, Option.none_or]

theorem value_assemble :
    (assemble r productions start).value = .ok g ↔
      fault? r productions start = none ∧ g = ⟨r, productions, start⟩ := by
  unfold assemble
  cases hf : fault? r productions start with
  | some f => simp
  | none => simp [eq_comm]

/-- The grammars that come out of `assemble`. -/
def Assembled (g : Grammar) : Prop :=
  ∃ r productions start, r.Issued ∧ (assemble r productions start).value = .ok g

theorem Assembled.issued (h : g.Assembled) : g.registry.Issued := by
  obtain ⟨r, productions, start, hr, hg⟩ := h
  rw [(value_assemble.mp hg).2]
  exact hr

theorem Assembled.fault? (h : g.Assembled) :
    Grammar.fault? g.registry g.productions g.start = none := by
  obtain ⟨r, productions, start, _, hg⟩ := h
  obtain ⟨hf, he⟩ := value_assemble.mp hg
  rw [he]
  exact hf

theorem Assembled.contains (h : g.Assembled) {p : Production} (hp : p ∈ g.productions)
    {s : Symbol} (hs : s ∈ p.lhs ++ p.rhs) : g.registry.contains s = true :=
  ((fault?_eq_none.mp h.fault?).1 p hp).2.2 s hs

theorem Assembled.id_le (h : g.Assembled) {p : Production} (hp : p ∈ g.productions)
    {s : Symbol} (hs : s ∈ p.lhs ++ p.rhs) : s.id ≤ g.registry.size :=
  h.issued.id_le_of_contains (h.contains hp hs)

theorem isContextFree_iff :
    g.isContextFree = true ↔
      ∀ p ∈ g.productions, ∃ n, p.lhs = [n] ∧ g.registry.isNonterminal n = true := by
  simp only [isContextFree, List.all_eq_true, Option.any_eq_true, Production.soleLhs?_eq_some]

theorem value_analyze {a : Analysis} :
    g.analyze.value = .ok a ↔ g.isContextFree = true ∧ a = ⟨g, g.solveFirst.value⟩ := by
  unfold analyze
  split
  next hc => simp [hc, eq_comm]
  next hc => simp [hc]

/-- `S → S a` and `S → ε`. -/
def repetition : Grammar where
  registry := (Registry.ofList [("S", .nonterminal), ("a", .terminal)]).value
  productions :=
    [⟨[⟨1, .nonterminal⟩], [⟨1, .nonterminal⟩, ⟨2, .terminal⟩]⟩, .vanishing ⟨1, .nonterminal⟩]
  start := ⟨1, .nonterminal⟩

theorem assembled_repetition : repetition.Assembled :=
  ⟨repetition.registry, repetition.productions, repetition.start, Registry.issued_ofList _, rfl⟩

end Grammar

end Lookahead
