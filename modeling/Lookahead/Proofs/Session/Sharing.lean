import Lookahead.Proofs.Session.Origins

/-!
# Sharing an origin

Two grammars share when the numbers kept with them agree. As the numbers are places
in the list of the assemblies of the run, sharing is coming from one assembly, and
it makes the grammars equal, whatever has been done to them on the way. An
analysis that shares with a grammar is what analysing the grammar computes.
-/
namespace Lookahead.Session

variable {commands : List Command} {calls : Calls} {h k : Holder} {x y : Sourced Artifact}
  {i j m n : ℕ}

/-- What both of them hold has one origin. -/
def Shares (s : Session) (h k : Holder) : Prop :=
  ∃ x ∈ s.held? h, ∃ y ∈ s.held? k, x.origin = y.origin

instance (s : Session) (h k : Holder) : Decidable (s.Shares h k) :=
  inferInstanceAs (Decidable (∃ x ∈ s.held? h, ∃ y ∈ s.held? k, x.origin = y.origin))

/-- After these commands, origins tell the assemblies apart, and all that goes back
to one assembly agrees. -/
structure TracksOrigins (commands : List Command) : Prop where
  traced : ∀ h, ((after commands).held? h).isSome ↔ ∃! i, TracesTo commands h i
  shares_iff : ∀ h k, (after commands).Shares h k ↔
    ∃ i, TracesTo commands h i ∧ TracesTo commands k i
  equivalence : Equivalence fun h k : {h // ((after commands).held? h).isSome} =>
    (after commands).Shares h k
  apart : ∀ h k i j, TracesTo commands h i → TracesTo commands k j → i ≠ j →
    ¬ (after commands).Shares h k
  /-- The command that asks is never refused, and answers this. -/
  answer : ∀ left right, ((after commands).held? (.grammar left)).isSome →
    ((after commands).held? (.grammar right)).isSome →
    ∃ b, ((after commands).step (.shareOrigin left right)).run.value =
        .ok (.truth b, after commands) ∧
      (b = true ↔ (after commands).Shares (.grammar left) (.grammar right))
  grammar : ∀ h k x y, (after commands).Shares h k → (after commands).held? h = some x →
    (after commands).held? k = some y →
    x.value.base.registry = y.value.base.registry ∧
      x.value.base.productions = y.value.base.productions ∧
      x.value.base.start = y.value.base.start
  /-- Building one of them and analysing the other have the same reply or refusal, the
  same events, and the same session after them. -/
  verdict : ∀ left right into, (after commands).Shares (.grammar left) (.grammar right) →
    (after commands).step (.build left .ll1 into) = (after commands).step (.analyze right into)
  first : ∀ left right a b, (after commands).Shares (.analysis left) (.analysis right) →
    (after commands).analyses[left]? = some a → (after commands).analyses[right]? = some b →
    a.value.first = b.value.first
  /-- What is kept in an analysis is what analysing any of them once more would find. -/
  fresh : ∀ slot h a x, (after commands).Shares (.analysis slot) h →
    (after commands).analyses[slot]? = some a → (after commands).held? h = some x →
    x.value.base.analyze.value = .ok a.value

section Holders

variable {s : Session} {slot left right : String} {g : Sourced Grammar} {a : Sourced Analysis}

theorem Shares.symm (hs : s.Shares h k) : s.Shares k h := by
  obtain ⟨x, hx, y, hy, ho⟩ := hs
  exact ⟨y, hy, x, hx, ho.symm⟩

theorem shares_self (hx : s.held? h = some x) : s.Shares h h := ⟨x, hx, x, hx, rfl⟩

theorem Shares.origin_eq (hs : s.Shares h k) (hx : s.held? h = some x) (hy : s.held? k = some y) :
    x.origin = y.origin := by
  obtain ⟨x', hx', y', hy', ho⟩ := hs
  cases Option.mem_unique hx hx'
  cases Option.mem_unique hy hy'
  exact ho

theorem Shares.trans {l : Holder} (hk : s.Shares h k) (hl : s.Shares k l) : s.Shares h l := by
  obtain ⟨x, hx, y, hy, hxy⟩ := hk
  obtain ⟨z, hz, w, hw, hzw⟩ := hl
  cases Option.mem_unique hy hz
  exact ⟨x, hx, w, hw, hxy.trans hzw⟩

theorem exists_grammar (hx : s.held? (.grammar slot) = some x) :
    ∃ g, s.grammars[slot]? = some g ∧ x = ⟨g.origin, .grammar g.value⟩ := by
  obtain ⟨g, hg, rfl⟩ := Option.map_eq_some_iff.mp hx
  exact ⟨g, hg, rfl⟩

theorem value_step_shareOrigin {g' : Sourced Grammar} (hg : s.grammars[left]? = some g)
    (hg' : s.grammars[right]? = some g') :
    (s.step (.shareOrigin left right)).run.value = .ok (.truth (g.origin == g'.origin), s) := by
  rw [step, value_bind_of_ok (grammar_eq_ok_iff.mpr hg),
    value_bind_of_ok (grammar_eq_ok_iff.mpr hg')]
  rfl

theorem attemptLogged_map {α β : Type} (f : α → β) (m : Logged (Except Fault α)) :
    attemptLogged ((·.map f) <$> m) = f <$> attemptLogged m := by
  apply ExceptT.ext
  rw [ExceptT.run_map]
  change (·.mapError Refusal.fault) <$> ((·.map f) <$> m) =
    Except.map f <$> ((·.mapError Refusal.fault) <$> m)
  rw [Functor.map_map, Functor.map_map]
  congr 1
  funext result
  cases result <;> rfl

theorem step_build_ll1 (s : Session) (slot into : String) :
    s.step (.build slot .ll1 into) = s.step (.analyze slot into) := by
  refine congrArg (fetch (s.grammar slot) >>= ·) (funext fun g => ?_)
  rw [build_ll1, attemptLogged_map, bind_map_left]
  rfl

theorem step_analyze_congr (hleft : s.grammars[left]? = some g)
    (hright : s.grammars[right]? = some g) (into : String) :
    s.step (.analyze left into) = s.step (.analyze right into) := by
  have hslot : s.grammar left = s.grammar right := by rw [grammar, grammar, hleft, hright]
  rw [step, step, hslot]

end Holders

namespace Ledger

variable (hl : Ledger commands calls)
include hl

theorem exists_call (hx : (after commands).held? h = some x) :
    ∃ i, calls[x.origin]? = some (i, x.value.base) ∧ x.value.Fresh ∧
      ∀ j, TracesTo commands h j ↔ j = i := by
  have hr := hl.recorded h
  rw [hx] at hr
  generalize TracesTo commands h = traces at hr
  cases hr with
  | held hcall hf => exact ⟨_, hcall, hf, fun j => Iff.rfl⟩

theorem exists_held (ht : TracesTo commands h i) : ∃ x, (after commands).held? h = some x := by
  have hr := hl.recorded h
  generalize TracesTo commands h = traces at hr ht
  generalize (after commands).held? h = content at hr
  cases hr with
  | empty => exact ht.elim
  | held => exact ⟨_, rfl⟩

/-- No two calls have one position. -/
theorem index_inj {a b : ℕ × Grammar} (ha : calls[m]? = some a) (hb : calls[n]? = some b)
    (h : a.1 = b.1) : m = n := by
  obtain ⟨hm, rfl⟩ := List.getElem?_eq_some_iff.mp ha
  obtain ⟨hn, rfl⟩ := List.getElem?_eq_some_iff.mp hb
  have hrising := List.pairwise_iff_getElem.mp hl.rising
  cases Nat.lt_trichotomy m n with
  | inl hlt => exact absurd h (hrising m n hm hn hlt).ne
  | inr hge =>
      cases hge with
      | inl heq => exact heq
      | inr hlt => exact absurd h (hrising n m hn hm hlt).ne'

theorem shares_iff :
    (after commands).Shares h k ↔ ∃ i, TracesTo commands h i ∧ TracesTo commands k i := by
  constructor
  · intro hs
    obtain ⟨x, hx, y, hy, ho⟩ := hs
    obtain ⟨i, hi, _, hti⟩ := hl.exists_call hx
    obtain ⟨j, hj, _, htj⟩ := hl.exists_call hy
    rw [ho, hj] at hi
    have hij := (Prod.mk.inj (Option.some.inj hi)).1
    exact ⟨i, (hti i).mpr rfl, (htj i).mpr hij.symm⟩
  · intro ht
    obtain ⟨i, hh, hk⟩ := ht
    obtain ⟨x, hx⟩ := hl.exists_held hh
    obtain ⟨y, hy⟩ := hl.exists_held hk
    obtain ⟨_, hi, _, hti⟩ := hl.exists_call hx
    obtain ⟨_, hj, _, htj⟩ := hl.exists_call hy
    cases (hti i).mp hh
    cases (htj i).mp hk
    exact ⟨x, hx, y, hy, hl.index_inj hi hj rfl⟩

theorem base_eq (hx : (after commands).held? h = some x) (hy : (after commands).held? k = some y)
    (ho : x.origin = y.origin) : x.value.base = y.value.base := by
  obtain ⟨i, hi, _⟩ := hl.exists_call hx
  obtain ⟨j, hj, _⟩ := hl.exists_call hy
  rw [ho, hj] at hi
  exact (Prod.mk.inj (Option.some.inj hi)).2.symm

theorem exists_common_grammar {left right : String}
    (hs : (after commands).Shares (.grammar left) (.grammar right)) :
    ∃ g, (after commands).grammars[left]? = some g ∧ (after commands).grammars[right]? = some g := by
  obtain ⟨x, hx, y, hy, ho⟩ := hs
  have hbase := hl.base_eq hx hy ho
  obtain ⟨⟨origin, g⟩, hg, rfl⟩ := exists_grammar hx
  obtain ⟨⟨origin', g'⟩, hg', rfl⟩ := exists_grammar hy
  cases (ho : origin = origin')
  cases (hbase : g = g')
  exact ⟨_, hg, hg'⟩

theorem analyze_eq {slot : String} {a : Sourced Analysis}
    (ha : (after commands).analyses[slot]? = some a) (hx : (after commands).held? h = some x)
    (ho : a.origin = x.origin) : x.value.base.analyze.value = .ok a.value := by
  have hheld := held?_analysis ha
  rw [← hl.base_eq hheld hx ho]
  obtain ⟨_, _, hfresh, _⟩ := hl.exists_call hheld
  exact hfresh

theorem tracesTo_unique (hi : TracesTo commands h i) (hj : TracesTo commands h j) : i = j := by
  obtain ⟨x, hx⟩ := hl.exists_held hi
  obtain ⟨n, _, _, hn⟩ := hl.exists_call hx
  rw [(hn i).mp hi, (hn j).mp hj]

theorem tracksOrigins : TracksOrigins commands where
  traced h := by
    rw [Option.isSome_iff_exists]
    constructor
    · intro hsome
      obtain ⟨x, hx⟩ := hsome
      obtain ⟨i, _, _, hi⟩ := hl.exists_call hx
      exact ⟨i, (hi i).mpr rfl, fun j hj => (hi j).mp hj⟩
    · intro htraced
      obtain ⟨i, hi, _⟩ := htraced
      exact hl.exists_held hi
  shares_iff h k := hl.shares_iff
  equivalence := by
    refine ⟨fun held => ?_, Shares.symm, Shares.trans⟩
    obtain ⟨x, hx⟩ := Option.isSome_iff_exists.mp held.2
    exact shares_self hx
  apart h k i j hi hj hne hs := by
    obtain ⟨n, hh, hk⟩ := hl.shares_iff.mp hs
    exact hne ((hl.tracesTo_unique hi hh).trans (hl.tracesTo_unique hk hj))
  answer left right hleft hright := by
    obtain ⟨x, hx⟩ := Option.isSome_iff_exists.mp hleft
    obtain ⟨y, hy⟩ := Option.isSome_iff_exists.mp hright
    obtain ⟨g, hg, rfl⟩ := exists_grammar hx
    obtain ⟨g', hg', rfl⟩ := exists_grammar hy
    refine ⟨g.origin == g'.origin, value_step_shareOrigin hg hg', ?_⟩
    rw [beq_iff_eq]
    exact ⟨fun ho => ⟨_, hx, _, hy, ho⟩, fun hs => hs.origin_eq hx hy⟩
  grammar h k x y hs hx hy := by
    rw [hl.base_eq hx hy (hs.origin_eq hx hy)]
    exact ⟨rfl, rfl, rfl⟩
  verdict left right into hs := by
    obtain ⟨g, hleft, hright⟩ := hl.exists_common_grammar hs
    rw [step_build_ll1, step_analyze_congr hleft hright]
  first left right a b hs ha hb := by
    have hheld := held?_analysis hb
    have hab := hl.analyze_eq ha hheld (hs.origin_eq (held?_analysis ha) hheld)
    have hb := hl.analyze_eq hb hheld rfl
    rw [Except.ok.inj (hab.symm.trans hb)]
  fresh slot h a x hs ha hx := hl.analyze_eq ha hx (hs.origin_eq (held?_analysis ha) hx)

end Ledger

/-- Along every run, sharing an origin is coming from one assembly, and what shares
agrees in all that it is and in all that is computed from it. -/
theorem after_tracksOrigins (commands : List Command) : TracksOrigins commands := by
  obtain ⟨calls, hl⟩ := exists_ledger commands
  exact hl.tracksOrigins

/-- Two grammars put together from equal rules, and what is made of the first one. -/
def twice : List Command :=
  [.grammarOfRules "g" ["S"] ["a"] ["S -> a"] "S", .grammarOfRules "h" ["S"] ["a"] ["S -> a"] "S",
    .copyGrammar "g" "k", .analyze "k" "a", .takeGrammar "a" "m"]

theorem after_tracksOrigins_twice :
    (∃ i, TracesTo twice (.grammar "g") i ∧ TracesTo twice (.grammar "m") i) ∧
      ¬ ∃ i, TracesTo twice (.grammar "g") i ∧ TracesTo twice (.grammar "h") i := by
  have h := after_tracksOrigins twice
  rw [← h.shares_iff, ← h.shares_iff]
  decide +kernel

end Lookahead.Session
