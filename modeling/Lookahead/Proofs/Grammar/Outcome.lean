import Lookahead.Proofs.Grammar.Faults
import Lookahead.Proofs.Registry.Ranked
import Lookahead.Proofs.Rule.Written
import Mathlib.Order.Bounds.Basic

/-!
# Outcomes of building from rules

A grammar is built from two sets of names, a set of rules and the name of its
start. The rules are read one after the other by rising text, so the first one
refused is the least of those that cannot be read, and it hides whatever is wrong
with the others and with the start. What is read has both sides and is written
with symbols of the registry, so of all the faults that parts can have, only a
start that is no nonterminal is left. `Outcome` lists the four ways this can end.

The lists are sorted before anything else is done with them, so lists with the
same members build the same grammar, or fail in the same way, with the same log.
-/
namespace Lookahead

section Lists

variable {α β ε : Type}

theorem exists_rel_of_mem {R : α → β → Prop} {k : List α} {l : List β}
    (h : List.Forall₂ R k l) {b : β} (hb : b ∈ l) : ∃ a, R a b := by
  induction h with
  | nil => cases hb
  | @cons a _ _ _ hab _ ih =>
      rcases List.mem_cons.mp hb with rfl | hb
      · exact ⟨a, hab⟩
      · exact ih hb

variable {f : α → Except ε β} {a : α} {b : β} {e : ε} {l : List α}

/-- The elements of a list for which `f` fails. -/
def Failing (f : α → Except ε β) (l : List α) : Set α := {a | a ∈ l ∧ ∃ e, f a = .error e}

theorem failing_cons_of_ok (hf : f a = .ok b) : Failing f (a :: l) = Failing f l := by
  ext x
  refine and_congr_left fun hx => ?_
  rw [List.mem_cons, or_iff_right]
  rintro rfl
  obtain ⟨e, hx⟩ := hx
  rw [hf] at hx
  cases hx

theorem failing_mapError {ε' : Type} (f : α → Except ε β) (h : ε → ε') (l : List α) :
    Failing (fun a => (f a).mapError h) l = Failing f l := by
  ext a
  refine and_congr_right fun _ => ?_
  simp only [mapError_eq_error_iff]
  constructor
  · intro ha
    obtain ⟨_, c, hc, _⟩ := ha
    exact ⟨c, hc⟩
  · intro ha
    obtain ⟨c, hc⟩ := ha
    exact ⟨h c, c, hc, rfl⟩

variable [LinearOrder α]

theorem failing_distinct (f : α → Except ε β) (l : List α) :
    Failing f (Ascending.distinct l) = Failing f l := by
  ext a
  exact and_congr_left fun _ => Ascending.mem_distinct

/-- The first element of an ascending list fails before any other. -/
theorem isLeast_failing_cons (ha : ∀ b ∈ l, a < b) (hf : f a = .error e) :
    IsLeast (Failing f (a :: l)) a := by
  refine ⟨⟨List.mem_cons_self, e, hf⟩, fun b hb => ?_⟩
  rcases List.mem_cons.mp hb.1 with rfl | hb
  · exact le_rfl
  · exact (ha b hb).le

/-- Along an ascending list the failure is that of the least element that fails. -/
theorem mapM_eq_error_iff (hl : l.Pairwise (· < ·)) :
    l.mapM f = .error e ↔ ∃ a, IsLeast (Failing f l) a ∧ f a = .error e := by
  induction l with
  | nil =>
      refine iff_of_false (fun h => ?_) (fun h => ?_)
      · cases h
      · obtain ⟨a, ha, _⟩ := h
        cases ha.1.1
  | cons a l ih =>
      obtain ⟨ha, hl⟩ := List.pairwise_cons.mp hl
      rw [List.mapM_cons, bind_eq_error_iff]
      cases hf : f a with
      | error c =>
          have hleast := isLeast_failing_cons ha hf
          constructor
          · intro h
            rcases h with h | ⟨_, h, _⟩
            · exact ⟨a, hleast, hf.trans h⟩
            · cases h
          · intro h
            obtain ⟨b, hb, he⟩ := h
            rw [← hleast.unique hb, hf] at he
            exact .inl he
      | ok b =>
          rw [failing_cons_of_ok hf, ← ih hl]
          simp [bind_eq_error_iff, pure, Except.pure]

end Lists

namespace Registry

variable {r : Registry} {name : String} {s : Symbol}

/-- A name stands for the empty string, or for an issued symbol. -/
theorem Issued.resolve_cases (hr : r.Issued) (h : r.resolve name = .ok s) :
    (name = epsilonName ∧ s = .epsilon) ∨ (name ≠ epsilonName ∧ s ∈ r.symbols) := by
  obtain ⟨entries, hr⟩ := hr.exists_records
  refine (hr.entered_of_resolve h).imp_right fun hs => ⟨hs.1, ?_⟩
  have hmem := hr.mem_append_iff.mpr ⟨name, hs.2⟩
  exact (List.mem_append.mp hmem).symm

theorem Issued.terminal_or_mem_nonterminals (hr : r.Issued) (h : r.resolve name = .ok s) :
    (name = epsilonName ∨ s ∈ r.terminals) ∨ s ∈ r.nonterminals := by
  rcases hr.resolve_cases h with hs | hs
  · exact .inl (.inl hs.1)
  · exact hs.2.imp_left .inr

theorem Issued.kind_of_resolve (hr : r.Issued) (h : r.resolve name = .ok s)
    (ht : name = epsilonName ∨ s ∈ r.terminals) : s.kind = .terminal := by
  rcases ht with he | ht
  · rcases hr.resolve_cases h with hs | hs
    · rw [hs.2]
      rfl
    · exact absurd he hs.1
  · exact (mem_terminals.mp ht).1

theorem Issued.contains_of_resolve (hr : r.Issued) (h : r.resolve name = .ok s) :
    r.contains s = true := by
  rw [hr.contains_iff_mem]
  rcases hr.resolve_cases h with hs | hs
  · rw [hs.2]
    exact .inr le_rfl
  · exact .inl hs.2

end Registry

namespace Rule

variable {r : Registry} {p : Production} {text : String}

/-- Every symbol that is read from a rule was named there. -/
theorem exists_name_of_read {s : Symbol} (h : read r text = .ok p) (hs : s ∈ p.lhs ++ p.rhs) :
    ∃ name, r.resolve name = .ok s := by
  obtain ⟨left, right, _, _, hl, hright, _⟩ := read_eq_ok_iff.mp h
  rcases List.mem_append.mp hs with hs | hs
  · exact exists_rel_of_mem hl hs
  · exact exists_rel_of_mem hright hs

/-- What is read from a rule passes every check on productions. -/
theorem sound_of_read (hr : r.Issued) (h : read r text = .ok p) : Grammar.Sound r p := by
  obtain ⟨_, _, _, _, _, _, hlhs, hrhs⟩ := read_eq_ok_iff.mp h
  refine ⟨hlhs, hrhs, fun s hs => ?_⟩
  obtain ⟨name, hname⟩ := exists_name_of_read h hs
  exact hr.contains_of_resolve hname

end Rule

namespace Grammar

variable {r : Registry} {rules : List String} {start : String} {productions : List Production}
  {s : Symbol} {f : Fault} {result : Except Fault Grammar}

/-- The productions are what the rules read as, every text once, by rising text. -/
def Reads (r : Registry) (rules : List String) (productions : List Production) : Prop :=
  ∃ texts, texts.Pairwise (· < ·) ∧ (∀ text, text ∈ texts ↔ text ∈ rules) ∧
    List.Forall₂ (fun text p => Rule.read r text = .ok p) texts productions

/-- How building a grammar over `r` from rules and the name of a start can end. -/
inductive Outcome (r : Registry) (rules : List String) (start : String) :
    Except Fault Grammar → Prop
  /-- The least text that cannot be read is refused, whatever the start. -/
  | unreadable {text : String} {f : RuleFault} :
      IsLeast (Failing (Rule.read r) rules) text → Rule.read r text = .error f →
      Outcome r rules start (.error (.rule f))
  | unresolved {productions : List Production} {f : UnresolvedName} :
      Reads r rules productions → r.resolve start = .error f →
      Outcome r rules start (.error (.name f))
  /-- The start is the empty string or a terminal. -/
  | terminal {productions : List Production} {s : Symbol} :
      Reads r rules productions → r.resolve start = .ok s →
      start = epsilonName ∨ s ∈ r.terminals →
      Outcome r rules start (.error (.assembly (.terminalStart s.id)))
  | built {productions : List Production} {s : Symbol} :
      Reads r rules productions → r.resolve start = .ok s → s ∈ r.nonterminals →
      Outcome r rules start (.ok ⟨r, productions, s⟩)

section Read

theorem mapM_read_eq_ok_iff :
    (Ascending.distinct rules).mapM (fun text => (Rule.read r text).mapError Fault.rule) =
        .ok productions ↔ Reads r rules productions := by
  rw [mapM_eq_ok_iff]
  simp only [mapError_eq_ok_iff]
  constructor
  · intro h
    obtain ⟨hasc, hmem⟩ := Ascending.eq_distinct_iff.mp (rfl : _ = Ascending.distinct rules)
    exact ⟨_, hasc, hmem, h⟩
  · intro h
    obtain ⟨texts, hasc, hmem, h⟩ := h
    rw [← Ascending.eq_distinct_iff.mpr ⟨hasc, hmem⟩]
    exact h

theorem mapM_read_eq_error_iff :
    (Ascending.distinct rules).mapM (fun text => (Rule.read r text).mapError Fault.rule) =
        .error f ↔
      ∃ text, IsLeast (Failing (Rule.read r) rules) text ∧
        ∃ c, Rule.read r text = .error c ∧ .rule c = f := by
  rw [mapM_eq_error_iff (Ascending.pairwise_distinct rules), failing_distinct, failing_mapError]
  simp only [mapError_eq_error_iff]

theorem reads_or_failing (r : Registry) (rules : List String) :
    (∃ productions, Reads r rules productions) ∨
      ∃ text f, IsLeast (Failing (Rule.read r) rules) text ∧ Rule.read r text = .error f := by
  cases h : (Ascending.distinct rules).mapM fun text => (Rule.read r text).mapError Fault.rule with
  | ok productions => exact .inl ⟨productions, mapM_read_eq_ok_iff.mp h⟩
  | error f =>
      obtain ⟨text, hleast, f, hf, _⟩ := mapM_read_eq_error_iff.mp h
      exact .inr ⟨text, f, hleast, hf⟩

theorem readRules_of_failing {text : String} {f : RuleFault} (start : String)
    (hleast : IsLeast (Failing (Rule.read r) rules) text) (hf : Rule.read r text = .error f) :
    readRules r rules start = .error (.rule f) := by
  unfold readRules
  rw [mapM_read_eq_error_iff.mpr ⟨text, hleast, f, hf, rfl⟩]
  rfl

/-- Once the rules are read, the start decides. -/
theorem Reads.readRules_eq (h : Reads r rules productions) (start : String) :
    readRules r rules start = ((r.resolve start).mapError Fault.name).map (productions, ·) := by
  unfold readRules
  rw [mapM_read_eq_ok_iff.mpr h]
  cases r.resolve start <;> rfl

/-- Every production was read from some text. -/
theorem Reads.exists_read (h : Reads r rules productions) {p : Production}
    (hp : p ∈ productions) : ∃ text, Rule.read r text = .ok p := by
  obtain ⟨texts, _, _, h⟩ := h
  exact exists_rel_of_mem h hp

theorem Reads.sound (hr : r.Issued) (h : Reads r rules productions) {p : Production}
    (hp : p ∈ productions) : Sound r p := by
  obtain ⟨text, hread⟩ := h.exists_read hp
  exact Rule.sound_of_read hr hread

end Read

section Start

theorem startFault?_of_nonterminal (h : s ∈ r.nonterminals) : startFault? r s = none :=
  startFault?_eq_none.mpr (Registry.isNonterminal_iff_mem.mpr (.inl h))

theorem startFault?_of_terminal (hc : r.contains s = true) (hk : s.kind = .terminal) :
    startFault? r s = some (.terminalStart s.id) :=
  startFault?_eq_some_iff.mpr (.terminal hc hk)

/-- Parts that were read from rules are put together unless the start is no nonterminal. -/
theorem Reads.value_assemble (hr : r.Issued) (h : Reads r rules productions) (s : Symbol) :
    (assemble r productions s).value =
      match startFault? r s with
      | some f => .error (.assembly f)
      | none => .ok ⟨r, productions, s⟩ := by
  unfold assemble
  rw [fault?_eq_startFault? fun p hp => h.sound hr hp]
  cases startFault? r s <;> rfl

end Start

section Outcome

theorem value_ofRules (nonterminals terminals rules : List String) (start : String) :
    (ofRules nonterminals terminals rules start).value =
      readRules (Registry.ofNames nonterminals terminals).value rules start >>= fun parts =>
        (assemble (Registry.ofNames nonterminals terminals).value parts.1 parts.2).value := by
  unfold ofRules
  rw [Logged.value_bind]
  cases readRules (Registry.ofNames nonterminals terminals).value rules start <;> rfl

theorem outcome_readRules (hr : r.Issued) (rules : List String) (start : String) :
    Outcome r rules start
      (readRules r rules start >>= fun parts => (assemble r parts.1 parts.2).value) := by
  rcases reads_or_failing r rules with ⟨productions, hread⟩ | ⟨text, f, hleast, hf⟩
  · rw [hread.readRules_eq start]
    cases hs : r.resolve start with
    | error f => exact .unresolved hread hs
    | ok s =>
        change Outcome r rules start (assemble r productions s).value
        rw [hread.value_assemble hr s]
        rcases hr.terminal_or_mem_nonterminals hs with ht | hn
        · have hk : s.kind = .terminal := hr.kind_of_resolve hs ht
          rw [startFault?_of_terminal (hr.contains_of_resolve hs) hk]
          exact .terminal hread hs ht
        · rw [startFault?_of_nonterminal hn]
          exact .built hread hs hn
  · rw [readRules_of_failing start hleast hf]
    exact .unreadable hleast hf

theorem Outcome.value_eq (hr : r.Issued) (h : Outcome r rules start result) :
    (readRules r rules start >>= fun parts => (assemble r parts.1 parts.2).value) = result := by
  cases h with
  | unreadable hleast hf =>
      rw [readRules_of_failing start hleast hf]
      rfl
  | unresolved hread hs =>
      rw [hread.readRules_eq start, hs]
      rfl
  | terminal hread hs ht =>
      rw [hread.readRules_eq start, hs]
      change (assemble r _ _).value = _
      have hk := hr.kind_of_resolve hs ht
      rw [hread.value_assemble hr, startFault?_of_terminal (hr.contains_of_resolve hs) hk]
  | built hread hs hn =>
      rw [hread.readRules_eq start, hs]
      change (assemble r _ _).value = _
      rw [hread.value_assemble hr, startFault?_of_nonterminal hn]

theorem value_ofRules_eq_iff {nonterminals terminals : List String} :
    (ofRules nonterminals terminals rules start).value = result ↔
      Outcome (Registry.ofNames nonterminals terminals).value rules start result := by
  have hr := Registry.issued_ofNames nonterminals terminals
  rw [value_ofRules]
  constructor
  · rintro rfl
    exact outcome_readRules hr rules start
  · exact Outcome.value_eq hr

theorem Outcome.exists_terminalStart {f : AssemblyFault}
    (h : Outcome r rules start (.error (.assembly f))) : ∃ i, f = .terminalStart i := by
  cases h with
  | terminal => exact ⟨_, rfl⟩

theorem ofRules_congr {nonterminals nonterminals' terminals terminals' rules rules' : List String}
    (hn : ∀ name, name ∈ nonterminals' ↔ name ∈ nonterminals)
    (ht : ∀ name, name ∈ terminals' ↔ name ∈ terminals)
    (hr : ∀ text, text ∈ rules' ↔ text ∈ rules) (start : String) :
    ofRules nonterminals' terminals' rules' start = ofRules nonterminals terminals rules start := by
  unfold ofRules readRules
  rw [Registry.ofNames_congr hn ht, Ascending.distinct_congr hr]

/-- Building from rules ends in exactly the way that `Outcome` says. A start that is no
nonterminal is the one fault of assembled parts that it can report, and lists
with the same members end in the same way. -/
theorem ofRules_outcome (nonterminals terminals rules : List String) (start : String) :
    (∀ result, (ofRules nonterminals terminals rules start).value = result ↔
        Outcome (Registry.ofNames nonterminals terminals).value rules start result) ∧
      (∀ f, (ofRules nonterminals terminals rules start).value = .error (.assembly f) →
        ∃ i, f = .terminalStart i) ∧
      ∀ nonterminals' terminals' rules' : List String,
        (∀ name, name ∈ nonterminals' ↔ name ∈ nonterminals) →
        (∀ name, name ∈ terminals' ↔ name ∈ terminals) →
        (∀ text, text ∈ rules' ↔ text ∈ rules) →
        ofRules nonterminals' terminals' rules' start =
          ofRules nonterminals terminals rules start := by
  refine ⟨fun _ => value_ofRules_eq_iff, fun f h => ?_, fun _ _ _ hn ht hr => ?_⟩
  · exact (value_ofRules_eq_iff.mp h).exists_terminalStart
  · exact ofRules_congr hn ht hr start

/-- Two texts of one production both stay. With a text that has no arrow among
them, neither the rule with an unknown name nor the unknown start is reported. -/
theorem ofRules_outcome_repeated :
    Outcome (Registry.ofNames ["S"] ["a"]).value ["S->a", "S -> a"] "S"
        (.ok ⟨(Registry.ofNames ["S"] ["a"]).value,
          [⟨[⟨1, .nonterminal⟩], [⟨2, .terminal⟩]⟩, ⟨[⟨1, .nonterminal⟩], [⟨2, .terminal⟩]⟩],
          ⟨1, .nonterminal⟩⟩) ∧
      ofRules ["S", "S"] ["a"] ["S -> a", "S->a", "S -> a"] "S" =
        ofRules ["S"] ["a"] ["S->a", "S -> a"] "S" ∧
      Outcome (Registry.ofNames ["S"] ["a"]).value ["S -> b", "S", "S -> a"] "T"
        (.error (.rule ⟨"S", .noArrow⟩)) := by
  obtain ⟨hbuilt, _, hsame⟩ := ofRules_outcome ["S"] ["a"] ["S->a", "S -> a"] "S"
  obtain ⟨hrefused, _, _⟩ := ofRules_outcome ["S"] ["a"] ["S -> b", "S", "S -> a"] "T"
  refine ⟨(hbuilt _).mp rfl, hsame _ _ _ ?_ ?_ ?_, (hrefused _).mp rfl⟩
  · simp
  · simp
  · simp [or_comm]

end Outcome

end Grammar

end Lookahead
