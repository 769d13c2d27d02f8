import Lookahead.Proofs.First.Shape
import Lookahead.Proofs.Registry.Ranked

/-!
# What is reported

A log is as good as an account of the work: a registry reports every symbol once, when
it issues it, and a solution every round, so the steps can be counted off the log. A
report closes what succeeded and stands behind all steps; a name that is known, parts
that do not fit together, and a grammar that is not context-free report nothing.

The log of a registry grows with its entries (`log_issueAll`), and that of the rounds is
the same for all fuel that reaches the end (`log_settle`).
-/
namespace Lookahead

/-- An event on the trace level for every step, in their order, and behind them at most
one event on the debug level, which closes the log. -/
structure StepLog (log steps : List Event) (closing : Option Event) : Prop where
  eq : log = steps ++ closing.toList
  steps_level : ∀ e ∈ steps, e.level = .trace
  closing_level : ∀ e ∈ closing, e.level = .debug

namespace Registry

variable {r : Registry} {entries : List (String × Kind)} {name : String} {kind : Kind}

/-- The events of issuing these entries one after the other, from the first identity on. -/
def issuedEvents (entries : List (String × Kind)) : List Event :=
  entries.mapIdx fun i e => .issued e.1 ⟨Symbol.firstId + i, e.2⟩

/-- The events are those of issuing the symbols of the registry, by rising identity and
each under its name. -/
structure Reported (r : Registry) (events : List Event) : Prop where
  length : events.length = r.size
  event : ∀ i < r.size, ∃ name kind,
    events[i]? = some (.issued name ⟨Symbol.firstId + i, kind⟩) ∧
      ⟨Symbol.firstId + i, kind⟩ ∈ r.symbols ∧
      r.name? ⟨Symbol.firstId + i, kind⟩ = some name

theorem issuedEvents_concat (entries : List (String × Kind)) (name : String) (kind : Kind) :
    issuedEvents (entries ++ [(name, kind)]) =
      issuedEvents entries ++ [.issued name ⟨Symbol.firstId + entries.length, kind⟩] :=
  List.mapIdx_concat

theorem level_issuedEvents {e : Event} (h : e ∈ issuedEvents entries) : e.level = .trace := by
  obtain ⟨_, _, rfl⟩ := List.mem_mapIdx.mp h
  rfl

theorem Records.reported (h : r.Records entries) : r.Reported (issuedEvents entries) where
  length := by rw [issuedEvents, List.length_mapIdx, h.size_eq]
  event i hi := by
    rw [h.size_eq] at hi
    have hentered : Entered entries ⟨Symbol.firstId + i, entries[i].2⟩ entries[i].1 :=
      entered_mk.mpr (List.getElem?_eq_getElem hi)
    refine ⟨entries[i].1, entries[i].2, ?_, ?_, h.name?_eq_some hentered⟩
    · rw [issuedEvents, List.getElem?_mapIdx, List.getElem?_eq_getElem hi]
      rfl
    · exact (List.mem_append.mp (h.mem_append_iff.mpr ⟨_, hentered⟩)).symm

theorem Records.log_issue_of_mem (h : r.Records entries) (hmem : (name, kind) ∈ entries) :
    (r.issue name kind).log = [] := by
  unfold Registry.issue
  cases hs : (r.index kind)[name]? with
  | some s => rfl
  | none => exact absurd hmem (h.index_eq_none.mp hs)

theorem Records.log_issue_of_notMem (h : r.Records entries) (hnew : (name, kind) ∉ entries) :
    (r.issue name kind).log = [.issued name ⟨Symbol.firstId + entries.length, kind⟩] := by
  unfold Registry.issue
  rw [h.index_eq_none.mpr hnew, ← h.nextSymbol_eq]
  rfl

/-- Issuing a name reports what it adds to the entries. -/
theorem issuedEvents_append_log_issue {names : List (String × Kind)}
    (h : r.Records names.eraseDups) (name : String) (kind : Kind) :
    issuedEvents names.eraseDups ++ (r.issue name kind).log =
      issuedEvents (names ++ [(name, kind)]).eraseDups := by
  rw [eraseDups_concat]
  split
  next hmem => rw [h.log_issue_of_mem hmem, List.append_nil]
  next hnew => rw [h.log_issue_of_notMem hnew, issuedEvents_concat]

theorem log_issueAll {names : List (String × Kind)} (h : r.Records names.eraseDups)
    (later : List (String × Kind)) :
    issuedEvents names.eraseDups ++ (r.issueAll later).log =
      issuedEvents (names ++ later).eraseDups := by
  induction later generalizing r names with
  | nil => simp [issueAll]
  | cons e later ih =>
      have hissue := h.issue e.1 e.2
      rw [← eraseDups_concat] at hissue
      calc
        _ = issuedEvents names.eraseDups ++ (r.issue e.1 e.2).log ++
            ((r.issue e.1 e.2).value.2.issueAll later).log := (List.append_assoc ..).symm
        _ = issuedEvents (names ++ [e]).eraseDups ++
            ((r.issue e.1 e.2).value.2.issueAll later).log := by
          rw [issuedEvents_append_log_issue h]
        _ = issuedEvents (names ++ [e] ++ later).eraseDups := ih hissue
        _ = issuedEvents (names ++ e :: later).eraseDups := by rw [← List.append_cons]

/-- The log of a list of names tells of each different one once. -/
theorem log_ofList (names : List (String × Kind)) :
    (ofList names).log = issuedEvents names.eraseDups := by
  have hempty : empty.Records ([] : List (String × Kind)).eraseDups := records_empty
  exact log_issueAll hempty names

/-- The log of two sets of names tells of the nonterminals first, by rising name. -/
theorem log_ofNames (nonterminals terminals : List String) :
    (ofNames nonterminals terminals).log =
      issuedEvents ((Ascending.distinct nonterminals).map (·, Kind.nonterminal) ++
        (Ascending.distinct terminals).map (·, Kind.terminal)) := by
  unfold ofNames
  rw [log_ofList, eraseDups_eq_self (nodup_distinct_append nonterminals terminals)]

end Registry

namespace Grammar

variable {g : Grammar} {t u : FirstTable} {k fuel : ℕ}

section Built

/-- The report on a grammar, when there is one. -/
def assembledEvent? : Except Fault Grammar → Option Event
  | .ok g => some (.assembled g.registry.size g.productions.length)
  | .error _ => none

theorem level_assembledEvent? {result : Except Fault Grammar} {e : Event}
    (h : e ∈ assembledEvent? result) : e.level = .debug := by
  cases result with
  | ok g =>
      cases h
      rfl
  | error f => cases h

theorem log_assemble (r : Registry) (productions : List Production) (start : Symbol) :
    (assemble r productions start).log =
      (assembledEvent? (assemble r productions start).value).toList := by
  unfold assemble
  cases fault? r productions start <;> rfl

theorem log_ofRules (nonterminals terminals rules : List String) (start : String) :
    (ofRules nonterminals terminals rules start).log =
      (Registry.ofNames nonterminals terminals).log ++
        (assembledEvent? (ofRules nonterminals terminals rules start).value).toList := by
  unfold ofRules
  rw [Logged.log_bind, Logged.value_bind]
  congr 1
  cases readRules (Registry.ofNames nonterminals terminals).value rules start with
  | error f => rfl
  | ok parts => exact log_assemble _ parts.1 parts.2

end Built

section Rounds

/-- The events of `k` rounds that follow the first `done` ones, of which the last one alone
changes nothing. -/
def roundEvents (done k : ℕ) : List Event :=
  (List.range k).map fun i => .round (done + i + 1) (decide (i + 1 < k))

theorem roundEvents_succ (done : ℕ) (hk : 0 < k) :
    roundEvents done (k + 1) = .round (done + 1) true :: roundEvents (done + 1) k := by
  unfold roundEvents
  rw [List.range_succ_eq_map, List.map_cons, List.map_map]
  congr 1
  · simp [hk]
  · apply List.map_congr_left
    intro i _
    simp only [Function.comp_apply, Nat.succ_eq_add_one, Nat.add_lt_add_iff_right]
    congr 1
    omega

theorem level_roundEvents {done : ℕ} {e : Event} (h : e ∈ roundEvents done k) :
    e.level = .trace := by
  obtain ⟨_, _, rfl⟩ := List.mem_map.mp h
  rfl

theorem Settles.pos (h : g.Settles t k u) : 0 < k := by
  cases h <;> exact Nat.succ_pos _

/-- Every round reports itself, on any fuel that lasts. -/
theorem log_settle (h : g.Settles t k u) (hk : k ≤ fuel) (done : ℕ) :
    (g.settle fuel done t).log = roundEvents done k := by
  induction h generalizing fuel done with
  | rest hs =>
      obtain ⟨fuel, rfl⟩ := Nat.exists_eq_succ_of_ne_zero (Nat.ne_of_gt hk)
      simp [settle, hs, roundEvents]
  | @move t u k hs hrest ih =>
      obtain ⟨fuel, rfl⟩ := Nat.exists_eq_add_of_le' (Nat.one_le_of_lt hk)
      have hlog := ih (Nat.le_of_succ_le_succ hk) (done + 1)
      rw [roundEvents_succ done hrest.pos, ← hlog]
      simp [settle, hs]

/-- Every round takes fuel. -/
theorem rounds_settle_le (fuel done : ℕ) (t : FirstTable) :
    (g.settle fuel done t).value.rounds ≤ done + fuel := by
  induction fuel generalizing done t with
  | zero => exact Nat.le_refl done
  | succ fuel ih =>
      cases hs : (g.nextTable t).same t with
      | true => simp [settle, hs]
      | false =>
          have hrest := ih (done + 1) (g.nextTable t)
          simp only [settle, hs, Logged.value_bind]
          exact hrest.trans_eq (Nat.add_right_comm done 1 fuel)

theorem log_solveFirst (g : Grammar) :
    g.solveFirst.log = roundEvents 0 g.solveFirst.value.rounds ++
      [.settled g.solveFirst.value.table.size g.solveFirst.value.rounds] := by
  have hfuel : g.solveFirst.value.rounds ≤ g.roundBound := by
    rw [← Nat.zero_add g.roundBound]
    exact rounds_settle_le g.roundBound 0 g.initialTable
  rw [← log_settle g.solveFirst_settles hfuel 0]
  rfl

theorem log_analyze_of_ok {b : Analysis} (h : g.analyze.value = .ok b) :
    g.analyze.log = roundEvents 0 b.first.rounds ++
      [.settled b.first.table.size b.first.rounds] := by
  obtain ⟨hc, rfl⟩ := value_analyze.mp h
  rw [analyze, if_pos hc, ← log_solveFirst]
  exact List.append_nil _

theorem log_analyze_of_error {f : Fault} (h : g.analyze.value = .error f) :
    g.analyze.log = [] := by
  unfold analyze at h ⊢
  split at h
  · cases h
  next hc => rw [if_neg hc]; rfl

end Rounds

/-- The log tells exactly what was done. Issuing a name that is known reports nothing.
Building from rules reports each symbol of the registry once, by rising identity and
under its name, and then the grammar, if there is one. An analysis reports its rounds by
their numbers, of which the last one alone changes nothing, and then the size of the
table, which lists the symbols of the registry and the reserved ones in use; a grammar
that cannot be analysed reports nothing. -/
theorem log_eq_steps :
    (∀ (names : List (String × Kind)) (name : String) (kind : Kind), (name, kind) ∈ names →
        ((Registry.ofList names).value.issue name kind).log = []) ∧
      (∀ (nonterminals terminals rules : List String) (start : String), ∃ steps,
        StepLog (ofRules nonterminals terminals rules start).log steps
            (assembledEvent? (ofRules nonterminals terminals rules start).value) ∧
          (Registry.ofNames nonterminals terminals).value.Reported steps ∧
          steps = Registry.issuedEvents
            (nonterminals.toFinset.sort.map (·, Kind.nonterminal) ++
              terminals.toFinset.sort.map (·, Kind.terminal))) ∧
      ∀ g : Grammar, g.Assembled →
        (∀ b, g.analyze.value = .ok b →
          StepLog g.analyze.log (roundEvents 0 b.first.rounds)
              (some (.settled b.first.table.size b.first.rounds)) ∧
            0 < b.first.rounds ∧
            b.first.table.size =
              g.registry.size + 1 + if g.mentionsEndMarker then 1 else 0) ∧
        ∀ f, g.analyze.value = .error f → g.analyze.log = [] := by
  refine ⟨?_, ?_, ?_⟩
  · intro names name kind hmem
    exact (Registry.records_ofList names).log_issue_of_mem (List.mem_eraseDups.mpr hmem)
  · intro nonterminals terminals rules start
    have hsteps := Registry.log_ofNames nonterminals terminals
    have hreported := (Registry.records_ofNames nonterminals terminals).reported
    rw [Ascending.distinct_eq_sort, Ascending.distinct_eq_sort] at hsteps hreported
    refine ⟨_, ⟨?_, fun _ => Registry.level_issuedEvents, fun _ => level_assembledEvent?⟩,
      hreported, rfl⟩
    rw [log_ofRules, hsteps]
  · intro g hg
    refine ⟨fun b hb => ⟨⟨log_analyze_of_ok hb, fun _ => level_roundEvents, ?_⟩, ?_, ?_⟩,
      fun f => log_analyze_of_error⟩
    · intro e he
      cases he
      rfl
    · rw [(value_analyze.mp hb).2]
      exact g.solveFirst_settles.pos
    · rw [(value_analyze.mp hb).2]
      exact size_solveFirst hg.issued

/-- `S a` stands for `a`. -/
def contextual : Grammar :=
  { repetition with
    productions := [⟨[⟨1, .nonterminal⟩, ⟨2, .terminal⟩], [⟨2, .terminal⟩]⟩] }

/-- The logs of an analysis in three rounds, of one that is refused, of building a grammar
with one rule, and of failing to for want of a start. -/
theorem log_eq_steps_repetition :
    ((Registry.ofList [("x", .terminal)]).value.issue "x" .terminal).log = [] ∧
      (ofRules ["S"] ["x"] ["S -> x"] "S").log =
        [.issued "S" ⟨1, .nonterminal⟩, .issued "x" ⟨2, .terminal⟩, .assembled 2 1] ∧
      (ofRules ["S"] ["x"] ["S -> x"] "y").log =
        [.issued "S" ⟨1, .nonterminal⟩, .issued "x" ⟨2, .terminal⟩] ∧
      repetition.analyze.log =
        [.round 1 true, .round 2 true, .round 3 false, .settled 3 3] ∧
      contextual.analyze.log = [] := by
  obtain ⟨hissue, hbuild, hanalyze⟩ := log_eq_steps
  have hsorted (name : String) : [name].toFinset.sort = [name] := by simp
  refine ⟨hissue _ _ _ List.mem_cons_self, ?_, ?_, ?_, ?_⟩
  · obtain ⟨steps, hlog, _, rfl⟩ := hbuild ["S"] ["x"] ["S -> x"] "S"
    rw [hlog.eq, hsorted, hsorted]
    rfl
  · obtain ⟨steps, hlog, _, rfl⟩ := hbuild ["S"] ["x"] ["S -> x"] "y"
    rw [hlog.eq, hsorted, hsorted]
    rfl
  · have hok : repetition.analyze.value = .ok ⟨repetition, repetition.solveFirst.value⟩ :=
      value_analyze.mpr ⟨by decide, rfl⟩
    rw [((hanalyze _ assembled_repetition).1 _ hok).1.eq]
    decide
  · have hg : contextual.Assembled :=
      ⟨contextual.registry, contextual.productions, contextual.start,
        Registry.issued_ofList _, rfl⟩
    exact (hanalyze _ hg).2 .notContextFree rfl

end Grammar

end Lookahead
