import Lookahead.Session.Step
import Lookahead.Proofs.Grammar.Assembled
import Lookahead.Proofs.Rule.Written
import Mathlib.Logic.Function.Basic

/-!
# What commands do to grammars and analyses

Of all that a session holds, only grammars and analyses have an origin. A command
leaves them alone, or puts a new grammar together, or makes one of them from
another one that the session holds: `Command.flow` tells which from the command
alone, and `effect_next` says what an accepted command of each sort has done.
Everything that holds of all grammars and analyses of a session follows from these
three cases.
-/
namespace Lookahead

/-- A grammar itself, or the one that was analysed. -/
def Artifact.base : Artifact → Grammar
  | .grammar g => g
  | .analysis a => a.grammar

/-- What was computed for a grammar is what analysing it computes. -/
def Artifact.Fresh : Artifact → Prop
  | .grammar _ => True
  | .analysis a => a.grammar.analyze.value = .ok a

/-- A slot of a session that takes something with an origin. -/
inductive Holder where
  | grammar (slot : String)
  | analysis (slot : String)
  deriving Repr, DecidableEq

/-- Where a command takes what it puts into a holder. -/
inductive Flow where
  | nothing
  /-- A new grammar. -/
  | assembly (into : Holder)
  | transfer (source into : Holder)
  deriving Repr, DecidableEq

def Flow.into? : Flow → Option Holder
  | .nothing => none
  | .assembly into | .transfer _ into => some into

def Command.flow : Command → Flow
  | .grammarOfRules into .. | .grammarOfDrafts _ into .. => .assembly (.grammar into)
  | .copyGrammar source into | .build source .plain into =>
      .transfer (.grammar source) (.grammar into)
  | .build source .ll1 into | .analyze source into => .transfer (.grammar source) (.analysis into)
  | .rebuild source .plain into | .takeGrammar source into =>
      .transfer (.analysis source) (.grammar into)
  | .rebuild source .ll1 into => .transfer (.analysis source) (.analysis into)
  | _ => .nothing

namespace Session

variable {s : Session} {command : Command} {slot : String} {α β : Type}

section Ensures

/-- Unless it is refused, the computation ends in a value with this property. -/
def Ensures (P : α → Prop) (m : ExceptT Refusal Logged α) : Prop :=
  ∀ a, m.run.value = .ok a → P a

theorem ensures_pure {P : α → Prop} {a : α} (h : P a) : Ensures P (pure a) := by
  intro b hb
  cases hb
  exact h

variable {m : ExceptT Refusal Logged α} {f : α → ExceptT Refusal Logged β}

theorem value_bind_of_ok {a : α} (hm : m.run.value = .ok a) :
    (m >>= f).run.value = (f a).run.value := by
  rw [ExceptT.run_bind, Logged.value_bind, hm]

theorem ensures_bind {P : β → Prop} (h : ∀ a, m.run.value = .ok a → Ensures P (f a)) :
    Ensures P (m >>= f) := by
  intro b hb
  cases hm : m.run.value with
  | error e =>
      rw [ExceptT.run_bind, Logged.value_bind, hm] at hb
      cases hb
  | ok a =>
      rw [value_bind_of_ok hm] at hb
      exact h a hm b hb

theorem value_attemptLogged {m : Logged (Except Fault α)} {a : α} :
    (attemptLogged m).run.value = .ok a ↔ m.value = .ok a :=
  mapError_eq_ok_iff

theorem value_under {m : Logged (Except Fault α)} {origin : ℕ} {x : Sourced α} :
    (Sourced.under origin m).value = .ok x ↔ m.value = .ok x.value ∧ x.origin = origin := by
  rw [Sourced.under, Logged.value_map, map_eq_ok_iff]
  constructor
  · intro h
    obtain ⟨a, ha, rfl⟩ := h
    exact ⟨ha, rfl⟩
  · intro h
    obtain ⟨hx, rfl⟩ := h
    exact ⟨x.value, hx, rfl⟩

theorem grammar_eq_ok_iff {g : Sourced Grammar} :
    (fetch (s.grammar slot)).run.value = .ok g ↔ s.grammars[slot]? = some g := by
  change s.grammar slot = .ok g ↔ _
  unfold grammar
  cases s.grammars[slot]? <;> simp

theorem analysis_eq_ok_iff {a : Sourced Analysis} :
    (fetch (s.analysis slot)).run.value = .ok a ↔ s.analyses[slot]? = some a := by
  change s.analysis slot = .ok a ↔ _
  unfold analysis
  cases s.analyses[slot]? <;> simp

end Ensures

section Holders

def held? (s : Session) : Holder → Option (Sourced Artifact)
  | .grammar slot => s.grammars[slot]?.map fun g => ⟨g.origin, .grammar g.value⟩
  | .analysis slot => s.analyses[slot]?.map fun a => ⟨a.origin, .analysis a.value⟩

theorem held?_grammar {g : Sourced Grammar} (hg : s.grammars[slot]? = some g) :
    s.held? (.grammar slot) = some ⟨g.origin, .grammar g.value⟩ := by
  rw [held?, hg]
  rfl

theorem held?_analysis {a : Sourced Analysis} (ha : s.analyses[slot]? = some a) :
    s.held? (.analysis slot) = some ⟨a.origin, .analysis a.value⟩ := by
  rw [held?, ha]
  rfl

theorem held?_putGrammar (g : Sourced Grammar) :
    (s.putGrammar slot g).held? =
      Function.update s.held? (.grammar slot) (some ⟨g.origin, .grammar g.value⟩) := by
  funext h
  cases h with
  | grammar name =>
      rw [Function.update_apply, held?, held?, putGrammar, Std.TreeMap.getElem?_insert]
      by_cases hn : slot = name
      · simp [hn]
      · simp [hn, Ne.symm hn]
  | analysis name => rw [Function.update_of_ne (by simp)]; rfl

theorem held?_putAnalysis (a : Sourced Analysis) :
    (s.putAnalysis slot a).held? =
      Function.update s.held? (.analysis slot) (some ⟨a.origin, .analysis a.value⟩) := by
  funext h
  cases h with
  | grammar name => rw [Function.update_of_ne (by simp)]; rfl
  | analysis name =>
      rw [Function.update_apply, held?, held?, putAnalysis, Std.TreeMap.getElem?_insert]
      by_cases hn : slot = name
      · simp [hn]
      · simp [hn, Ne.symm hn]

theorem held?_putRegistry (r : Registry) : (s.putRegistry slot r).held? = s.held? := by
  funext h
  cases h <;> rfl

end Holders

section Effect

/-- The second was made from the first: it goes back to the same assembly, it is the
same grammar, and nothing outdated was put next to it. -/
structure Transferred (x y : Sourced Artifact) : Prop where
  origin : y.origin = x.origin
  base : y.value.base = x.value.base
  fresh : x.value.Fresh → y.value.Fresh

/-- What a command may have done to the grammars and analyses of a session. -/
inductive Effect (s next : Session) : Flow → Prop
  | nothing : next.assemblies = s.assemblies → next.held? = s.held? → Effect s next .nothing
  | assembly {into : Holder} {g : Grammar} : next.assemblies = s.assemblies + 1 →
      next.held? = Function.update s.held? into (some ⟨s.assemblies, .grammar g⟩) →
      Effect s next (.assembly into)
  | transfer {source into : Holder} {x y : Sourced Artifact} : next.assemblies = s.assemblies →
      s.held? source = some x → Transferred x y →
      next.held? = Function.update s.held? into (some y) → Effect s next (.transfer source into)

theorem effect_self (s : Session) : Effect s s .nothing := .nothing rfl rfl

theorem effect_putRegistry (s : Session) (slot : String) (r : Registry) :
    Effect s (s.putRegistry slot r) .nothing :=
  .nothing rfl (held?_putRegistry r)

theorem effect_putAssembled {g : Sourced Grammar} (hg : g.origin = s.assemblies) :
    Effect s (s.putAssembled slot g) (.assembly (.grammar slot)) := by
  have hheld : (s.putAssembled slot g).held? =
      Function.update s.held? (.grammar slot) (some ⟨g.origin, .grammar g.value⟩) :=
    held?_putGrammar g
  rw [hg] at hheld
  exact .assembly rfl hheld

theorem effect_putGrammar {source : Holder} {x : Sourced Artifact} {g : Sourced Grammar}
    (hx : s.held? source = some x) (hg : Transferred x ⟨g.origin, .grammar g.value⟩) :
    Effect s (s.putGrammar slot g) (.transfer source (.grammar slot)) :=
  .transfer rfl hx hg (held?_putGrammar g)

theorem effect_putAnalysis {source : Holder} {x : Sourced Artifact} {a : Sourced Analysis}
    (hx : s.held? source = some x) (ha : Transferred x ⟨a.origin, .analysis a.value⟩) :
    Effect s (s.putAnalysis slot a) (.transfer source (.analysis slot)) :=
  .transfer rfl hx ha (held?_putAnalysis a)

/-- Copies, and the grammars of analyses. -/
theorem transferred_grammar (x : Sourced Artifact) :
    Transferred x ⟨x.origin, .grammar x.value.base⟩ :=
  ⟨rfl, rfl, fun _ => trivial⟩

theorem transferred_analyze {g : Sourced Grammar} {a : Sourced Analysis}
    (h : g.analyze.value = .ok a) :
    Transferred ⟨g.origin, .grammar g.value⟩ ⟨a.origin, .analysis a.value⟩ := by
  obtain ⟨ha, horigin⟩ := value_under.mp h
  have hg : a.value.grammar = g.value := by rw [(Grammar.value_analyze.mp ha).2]
  refine ⟨horigin, hg, fun _ => ?_⟩
  change a.value.grammar.analyze.value = .ok a.value
  rw [hg]
  exact ha

/-- To build the analysis of a grammar is to analyse it. -/
theorem build_ll1 (g : Sourced Grammar) :
    g.build .ll1 = (·.map fun a => ⟨a.origin, .analysis a.value⟩) <$> g.analyze := by
  change (·.map (Sourced.mk g.origin)) <$>
      (g.value.analyze >>= fun result => pure (result.map Artifact.analysis)) =
    (·.map fun a => ⟨a.origin, .analysis a.value⟩) <$>
      ((·.map (Sourced.mk g.origin)) <$> g.value.analyze)
  rw [bind_pure_comp, Functor.map_map, Functor.map_map]
  congr 1
  funext result
  cases result <;> rfl

theorem value_build_ll1 {g : Sourced Grammar} {b : Sourced Artifact}
    (h : (g.build .ll1).value = .ok b) :
    ∃ a, g.analyze.value = .ok a ∧ b = ⟨a.origin, .analysis a.value⟩ := by
  rw [build_ll1, Logged.value_map, map_eq_ok_iff] at h
  obtain ⟨a, ha, rfl⟩ := h
  exact ⟨a, ha, rfl⟩

/-- A command that is carried out does what its flow says. -/
theorem ensures_effect (s : Session) (command : Command) :
    Ensures (fun result => Effect s result.2 command.flow) (s.step command) := by
  cases command with
  | newRegistry into => exact ensures_pure (effect_putRegistry s into .empty)
  | nameRegistry into nonterminals terminals =>
      exact ensures_bind fun r _ => ensures_pure (effect_putRegistry s into r)
  | copyRegistry source into =>
      exact ensures_bind fun r _ => ensures_pure (effect_putRegistry s into r)
  | takeRegistry grammar into =>
      exact ensures_bind fun g _ => ensures_pure (effect_putRegistry s into g.value.registry)
  | issue registry name kind =>
      exact ensures_bind fun r _ => ensures_bind fun issued _ =>
        ensures_pure (effect_putRegistry s registry issued.2)
  | showRegistry registry => exact ensures_bind fun _ _ => ensures_pure (effect_self s)
  | resolve registry name =>
      exact ensures_bind fun _ _ => ensures_bind fun _ _ => ensures_pure (effect_self s)
  | report registry symbol =>
      exact ensures_bind fun _ _ => ensures_bind fun _ _ => ensures_pure (effect_self s)
  | readRule registry rule =>
      exact ensures_bind fun _ _ => ensures_bind fun _ _ => ensures_pure (effect_self s)
  | grammarOfRules into nonterminals terminals rules start =>
      refine ensures_bind fun g hg => ensures_pure ?_
      rw [value_attemptLogged] at hg
      exact effect_putAssembled (value_under.mp hg).2
  | grammarOfDrafts registry into drafts start =>
      refine ensures_bind fun _ _ => ensures_bind fun g hg => ensures_pure ?_
      rw [value_attemptLogged] at hg
      exact effect_putAssembled (value_under.mp hg).2
  | copyGrammar source into =>
      refine ensures_bind fun g hg => ensures_pure ?_
      rw [grammar_eq_ok_iff] at hg
      exact effect_putGrammar (held?_grammar hg) (transferred_grammar _)
  | showGrammar grammar => exact ensures_bind fun _ _ => ensures_pure (effect_self s)
  | shareOrigin left right =>
      exact ensures_bind fun _ _ => ensures_bind fun _ _ => ensures_pure (effect_self s)
  | productionsOf grammar symbol =>
      exact ensures_bind fun _ _ => ensures_bind fun _ _ => ensures_pure (effect_self s)
  | readRuleFor grammar rule =>
      exact ensures_bind fun _ _ => ensures_bind fun _ _ => ensures_pure (effect_self s)
  | build grammar target into =>
      refine ensures_bind fun g hg => ensures_bind fun b hb => ensures_pure ?_
      rw [grammar_eq_ok_iff] at hg
      rw [value_attemptLogged] at hb
      cases target with
      | plain =>
          cases hb
          exact effect_putGrammar (held?_grammar hg) (transferred_grammar _)
      | ll1 =>
          obtain ⟨a, ha, rfl⟩ := value_build_ll1 hb
          exact effect_putAnalysis (held?_grammar hg) (transferred_analyze ha)
  | analyze grammar into =>
      refine ensures_bind fun g hg => ensures_bind fun a ha => ensures_pure ?_
      rw [grammar_eq_ok_iff] at hg
      rw [value_attemptLogged] at ha
      exact effect_putAnalysis (held?_grammar hg) (transferred_analyze ha)
  | showAnalysis analysis => exact ensures_bind fun _ _ => ensures_pure (effect_self s)
  | rebuild analysis target into =>
      refine ensures_bind fun a ha => ensures_pure ?_
      rw [analysis_eq_ok_iff] at ha
      cases target with
      | plain => exact effect_putGrammar (held?_analysis ha) (transferred_grammar _)
      | ll1 => exact effect_putAnalysis (held?_analysis ha) ⟨rfl, rfl, id⟩
  | takeGrammar analysis into =>
      refine ensures_bind fun a ha => ensures_pure ?_
      rw [analysis_eq_ok_iff] at ha
      exact effect_putGrammar (held?_analysis ha) (transferred_grammar _)
  | compareFirst left right =>
      exact ensures_bind fun _ _ => ensures_bind fun _ _ => ensures_pure (effect_self s)
  | firstSet analysis symbol =>
      exact ensures_bind fun _ _ => ensures_bind fun _ _ => ensures_pure (effect_self s)
  | firstOf analysis string =>
      exact ensures_bind fun _ _ => ensures_bind fun _ _ => ensures_pure (effect_self s)

end Effect

section Run

/-- The session carries the command out. -/
def Accepts (s : Session) (command : Command) : Prop :=
  ∃ result, (s.step command).run.value = .ok result

/-- The session after the command, whether it was carried out or refused. -/
def next (s : Session) (command : Command) : Session :=
  match (s.step command).run.value with
  | .ok (_, next) => next
  | .error _ => s

theorem effect_next (h : s.Accepts command) : Effect s (s.next command) command.flow := by
  obtain ⟨result, hr⟩ := h
  rw [next, hr]
  exact ensures_effect s command result hr

theorem next_of_not_accepts (h : ¬ s.Accepts command) : s.next command = s := by
  unfold next
  split
  next hr => exact absurd ⟨_, hr⟩ h
  next => rfl

theorem last_run (s : Session) (commands : List Command) :
    (s.run commands).value.2 = commands.foldl next s := by
  induction commands generalizing s with
  | nil => rfl
  | cons command rest ih =>
      rw [run, Logged.value_bind, List.foldl_cons]
      cases hr : (s.step command).run.value with
      | ok result =>
          have hnext : s.next command = result.2 := by rw [next, hr]
          rw [hnext]
          exact ih result.2
      | error refusal =>
          have hnext : s.next command = s := by rw [next, hr]
          rw [hnext]
          exact ih s

/-- The session after these commands. -/
def after (commands : List Command) : Session := (empty.run commands).value.2

theorem after_nil : after [] = empty := rfl

theorem after_concat (commands : List Command) (command : Command) :
    after (commands ++ [command]) = (after commands).next command := by
  simp only [after, last_run, List.foldl_append, List.foldl_cons, List.foldl_nil]

end Run

end Session

end Lookahead
