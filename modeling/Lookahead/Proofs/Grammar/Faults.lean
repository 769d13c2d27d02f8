import Lookahead.Proofs.Grammar.Accepted

/-!
# Faults of parts

Parts can have many faults at once, and one is reported. The productions come first,
in their order, so it is a fault of the first production that is not sound: that its
left side is empty, or else its right side, or else the first symbol on its sides that
the registry does not know. Only when all productions are sound is the start looked
at. `Assembly` lists these ways to end, each with all that rules out the earlier ones,
and `assemble_eq_iff` says that putting parts together ends in just the way listed.
-/
namespace Lookahead.Grammar

variable {r : Registry} {p : Production} {productions : List Production} {start : Symbol}
  {index : ℕ} {f : AssemblyFault}

section Production

/-- What is reported of a production that is not sound. -/
inductive Unsound (r : Registry) (p : Production) (index : ℕ) : AssemblyFault → Prop
  | noLeftSide : p.lhs = [] → Unsound r p index (.noLeftSide index)
  | noRightSide : p.lhs ≠ [] → p.rhs = [] → Unsound r p index (.noRightSide index)
  /-- The registry knows every symbol before `s`, but not `s`. -/
  | strangeSymbol {known later : List Symbol} {s : Symbol} : p.lhs ≠ [] → p.rhs ≠ [] →
      p.lhs ++ p.rhs = known ++ s :: later → (∀ k ∈ known, r.contains k = true) →
      r.contains s = false → Unsound r p index (.strangeSymbol index s.id)

/-- The first symbol of a list that the registry does not know. -/
theorem find?_strange_eq_some_iff {l : List Symbol} {s : Symbol} :
    (l.find? fun s => !r.contains s) = some s ↔
      ∃ known later, l = known ++ s :: later ∧ (∀ k ∈ known, r.contains k = true) ∧
        r.contains s = false := by
  rw [List.find?_eq_some_iff_append]
  constructor
  · intro h
    obtain ⟨hs, known, later, hsplit, hknown⟩ := h
    exact ⟨known, later, hsplit, by simpa using hknown, by simpa using hs⟩
  · intro h
    obtain ⟨known, later, hsplit, hknown, hs⟩ := h
    exact ⟨by simpa using hs, known, later, hsplit, by simpa using hknown⟩

theorem productionFault?_of_sides (hl : p.lhs ≠ []) (hr : p.rhs ≠ []) :
    productionFault? r p index =
      ((p.lhs ++ p.rhs).find? fun s => !r.contains s).map (.strangeSymbol index ·.id) := by
  unfold productionFault?
  rw [if_neg (mt List.isEmpty_iff.mp hl), if_neg (mt List.isEmpty_iff.mp hr)]

theorem productionFault?_eq_some_iff :
    productionFault? r p index = some f ↔ Unsound r p index f := by
  constructor
  · intro h
    by_cases hl : p.lhs = []
    · rw [productionFault?, if_pos (List.isEmpty_iff.mpr hl)] at h
      cases h
      exact .noLeftSide hl
    · by_cases hr : p.rhs = []
      · rw [productionFault?, if_neg (mt List.isEmpty_iff.mp hl),
          if_pos (List.isEmpty_iff.mpr hr)] at h
        cases h
        exact .noRightSide hl hr
      · rw [productionFault?_of_sides hl hr, Option.map_eq_some_iff] at h
        obtain ⟨s, hs, rfl⟩ := h
        obtain ⟨known, later, hsplit, hknown, hstrange⟩ := find?_strange_eq_some_iff.mp hs
        exact .strangeSymbol hl hr hsplit hknown hstrange
  · intro h
    cases h with
    | noLeftSide hl => rw [productionFault?, if_pos (List.isEmpty_iff.mpr hl)]
    | noRightSide hl hr =>
        rw [productionFault?, if_neg (mt List.isEmpty_iff.mp hl),
          if_pos (List.isEmpty_iff.mpr hr)]
    | strangeSymbol hl hr hsplit hknown hstrange =>
        rw [productionFault?_of_sides hl hr,
          find?_strange_eq_some_iff.mpr ⟨_, _, hsplit, hknown, hstrange⟩]
        rfl

theorem Unsound.not_sound (h : Unsound r p index f) : ¬ Sound r p := by
  intro hs
  rw [← productionFault?_eq_some_iff, productionFault?_eq_none.mpr hs] at h
  cases h

/-- The first production that is not sound is the one reported. -/
theorem findSome?_productionFault?_eq_some_iff (offset : ℕ) :
    ((productions.zipIdx offset).findSome? fun (p, index) => productionFault? r p index) =
        some f ↔
      ∃ before p after, productions = before ++ p :: after ∧ (∀ q ∈ before, Sound r q) ∧
        Unsound r p (offset + before.length) f := by
  induction productions generalizing offset with
  | nil => simp
  | cons q rest ih =>
      rw [List.zipIdx_cons, List.findSome?_cons]
      simp only [List.cons_eq_append_iff]
      cases hq : productionFault? r q offset with
      | some e =>
          have hunsound := productionFault?_eq_some_iff.mp hq
          constructor
          · intro h
            cases h
            exact ⟨[], q, rest, .inl ⟨rfl, rfl⟩, nofun, hunsound⟩
          · intro h
            obtain ⟨before, p, after, hsplit, hbefore, hp⟩ := h
            rcases hsplit with ⟨rfl, hsplit⟩ | ⟨tail, rfl, _⟩
            · cases hsplit
              exact hq.symm.trans (productionFault?_eq_some_iff.mpr hp)
            · exact absurd (hbefore q List.mem_cons_self) hunsound.not_sound
      | none =>
          have hsound := productionFault?_eq_none.mp hq
          rw [ih (offset + 1)]
          constructor
          · intro h
            obtain ⟨before, p, after, rfl, hbefore, hp⟩ := h
            rw [Nat.add_assoc, Nat.add_comm 1] at hp
            exact ⟨q :: before, p, after, .inr ⟨before, rfl, rfl⟩,
              List.forall_mem_cons.mpr ⟨hsound, hbefore⟩, hp⟩
          · intro h
            obtain ⟨before, p, after, hsplit, hbefore, hp⟩ := h
            rcases hsplit with ⟨rfl, hsplit⟩ | ⟨tail, rfl, rfl⟩
            · cases hsplit
              exact absurd hsound hp.not_sound
            · refine ⟨tail, p, after, rfl, (List.forall_mem_cons.mp hbefore).2, ?_⟩
              rw [Nat.add_assoc, Nat.add_comm 1]
              exact hp

end Production

section Start

/-- What is reported of a start. -/
inductive UnfitStart (r : Registry) (start : Symbol) : AssemblyFault → Prop
  | strange : r.contains start = false → UnfitStart r start (.strangeStart start.id)
  | terminal : r.contains start = true → start.kind = .terminal →
      UnfitStart r start (.terminalStart start.id)

theorem startFault?_of_contains (h : r.contains start = true) :
    startFault? r start =
      match start.kind with
      | .terminal => some (.terminalStart start.id)
      | .nonterminal => none := by
  unfold startFault?
  cases hk : start.kind <;> simp [h, Registry.isNonterminal, Symbol.isNonterminal, hk]

theorem startFault?_eq_some_iff : startFault? r start = some f ↔ UnfitStart r start f := by
  constructor
  · intro h
    cases hc : r.contains start with
    | false =>
        simp only [startFault?, hc] at h
        cases h
        exact .strange hc
    | true =>
        rw [startFault?_of_contains hc] at h
        split at h
        next hk =>
          cases h
          exact .terminal hc hk
        next => cases h
  · intro h
    cases h with
    | strange hs => simp [startFault?, hs]
    | terminal hc hk => rw [startFault?_of_contains hc, hk]

end Start

/-- How putting parts together can end. -/
inductive Assembly (r : Registry) (productions : List Production) (start : Symbol) :
    Except Fault Grammar → Prop
  /-- All productions before `p` are sound, and `p` is not. -/
  | production {before after : List Production} {p : Production} {f : AssemblyFault} :
      productions = before ++ p :: after → (∀ q ∈ before, Sound r q) →
      Unsound r p before.length f → Assembly r productions start (.error (.assembly f))
  | start {f : AssemblyFault} : (∀ p ∈ productions, Sound r p) → UnfitStart r start f →
      Assembly r productions start (.error (.assembly f))
  | ok : (∀ p ∈ productions, Sound r p) → r.contains start = true → start.kind = .nonterminal →
      Assembly r productions start (.ok ⟨r, productions, start⟩)

theorem fault?_eq_some_iff :
    fault? r productions start = some f ↔
      (∃ before p after, productions = before ++ p :: after ∧ (∀ q ∈ before, Sound r q) ∧
        Unsound r p before.length f) ∨
      (∀ p ∈ productions, Sound r p) ∧ UnfitStart r start f := by
  unfold fault?
  rw [Option.or_eq_some_iff, findSome?_productionFault?_eq_some_iff,
    findSome?_productionFault?_eq_none, startFault?_eq_some_iff]
  simp only [Nat.zero_add]

theorem assembly_assemble (r : Registry) (productions : List Production) (start : Symbol) :
    Assembly r productions start (assemble r productions start).value := by
  unfold assemble
  cases hf : fault? r productions start with
  | some f =>
      rcases fault?_eq_some_iff.mp hf with ⟨before, p, after, hsplit, hbefore, hp⟩ | hstart
      · exact .production hsplit hbefore hp
      · exact .start hstart.1 hstart.2
  | none =>
      obtain ⟨hsound, hstart⟩ := fault?_eq_none.mp hf
      have hn := Registry.isNonterminal_iff.mp (startFault?_eq_none.mp hstart)
      exact .ok hsound hn.2 hn.1

theorem Assembly.value_eq {result : Except Fault Grammar}
    (h : Assembly r productions start result) :
    (assemble r productions start).value = result := by
  cases h with
  | production hsplit hbefore hp =>
      unfold assemble
      rw [fault?_eq_some_iff.mpr (.inl ⟨_, _, _, hsplit, hbefore, hp⟩)]
      rfl
  | start hsound hstart =>
      unfold assemble
      rw [fault?_eq_some_iff.mpr (.inr ⟨hsound, hstart⟩)]
      rfl
  | ok hsound hc hk =>
      have hn : r.isNonterminal start = true := Registry.isNonterminal_iff.mpr ⟨hk, hc⟩
      exact value_assemble.mpr
        ⟨fault?_eq_none.mpr ⟨hsound, startFault?_eq_none.mpr hn⟩, rfl⟩

/-- Putting parts together ends as `Assembly` says, for any registry, any productions
and any start. -/
theorem assemble_eq_iff (r : Registry) (productions : List Production) (start : Symbol)
    (result : Except Fault Grammar) :
    (assemble r productions start).value = result ↔ Assembly r productions start result := by
  constructor
  · rintro rfl
    exact assembly_assemble r productions start
  · exact Assembly.value_eq

/-- A sound production, one without any side, one with a strange symbol, and a start
that is strange too: the second production is reported, and that its left side is empty. -/
theorem assemble_eq_iff_faulty :
    Assembly repetition.registry
      [.vanishing ⟨1, .nonterminal⟩, ⟨[], []⟩, ⟨[⟨1, .nonterminal⟩], [⟨9, .terminal⟩]⟩]
      ⟨9, .terminal⟩ (.error (.assembly (.noLeftSide 1))) :=
  (assemble_eq_iff _ _ _ _).mp rfl

end Lookahead.Grammar
