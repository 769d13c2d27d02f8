import Lookahead.Session.Basic

/-!
# Commands of a session

Carrying out one command gives a reply and the session after it, or a refusal.
A slot is looked up before any name is resolved. A refused command leaves the
session as it was, though events that came before the refusal are reported.
-/
namespace Lookahead.Session

/-- A reply with the session after it, or a refusal, and the events on the way. -/
abbrev Outcome := ExceptT Refusal Logged (Reply × Session)

/-- Go on with the value unless there is a fault. -/
def attempt {α : Type} (result : Except Fault α) : ExceptT Refusal Logged α :=
  .mk (pure (result.mapError Refusal.fault))

/-- Go on with the value of a computation unless it ends in a fault. -/
def attemptLogged {α : Type} (m : Logged (Except Fault α)) : ExceptT Refusal Logged α :=
  .mk ((·.mapError Refusal.fault) <$> m)

/-- Go on with what a slot holds. -/
def fetch {α : Type} (content : Except Refusal α) : ExceptT Refusal Logged α := .mk (pure content)

def step (s : Session) : Command → Outcome
  | .newRegistry into => return (.done, s.putRegistry into .empty)
  | .nameRegistry into nonterminals terminals => do
      let r ← ExceptT.lift (Registry.ofNames nonterminals terminals)
      return (.registry r, s.putRegistry into r)
  | .copyRegistry source into => do
      let r ← fetch (s.registry source)
      return (.done, s.putRegistry into r)
  | .takeRegistry grammar into => do
      let g ← fetch (s.grammar grammar)
      return (.done, s.putRegistry into g.value.registry)
  | .issue registry name kind => do
      let r ← fetch (s.registry registry)
      let (symbol, r) ← ExceptT.lift (r.issue name kind)
      return (.symbol symbol, s.putRegistry registry r)
  | .showRegistry registry => do
      let r ← fetch (s.registry registry)
      return (.registry r, s)
  | .resolve registry name => do
      let r ← fetch (s.registry registry)
      let symbol ← attempt ((r.resolve name).mapError Fault.name)
      return (.symbol symbol, s)
  | .report registry symbol => do
      let r ← fetch (s.registry registry)
      let symbol ← attempt (r.dereference symbol)
      return (.report (r.report symbol), s)
  | .readRule registry rule => do
      let r ← fetch (s.registry registry)
      let p ← attempt ((Rule.read r rule).mapError Fault.rule)
      return (.production p, s)
  | .grammarOfRules into nonterminals terminals rules start => do
      let g ← attemptLogged (Sourced.ofRules s.assemblies nonterminals terminals rules start)
      return (.grammar g.value, s.putAssembled into g)
  | .grammarOfDrafts registry into drafts start => do
      let r ← fetch (s.registry registry)
      let g ← attemptLogged (Sourced.ofDrafts s.assemblies r drafts start)
      return (.grammar g.value, s.putAssembled into g)
  | .copyGrammar source into => do
      let g ← fetch (s.grammar source)
      return (.done, s.putGrammar into g.copy)
  | .showGrammar grammar => do
      let g ← fetch (s.grammar grammar)
      return (.grammar g.value, s)
  | .shareOrigin left right => do
      let g ← fetch (s.grammar left)
      let h ← fetch (s.grammar right)
      return (.truth (g.sharesStorage h), s)
  | .productionsOf grammar symbol => do
      let g ← fetch (s.grammar grammar)
      let symbol ← attempt (g.value.registry.dereference symbol)
      return (.productions (g.value.productionsOf symbol), s)
  | .readRuleFor grammar rule => do
      let g ← fetch (s.grammar grammar)
      let p ← attempt ((Rule.read g.value.registry rule).mapError Fault.rule)
      return (.production p, s)
  | .build grammar target into => do
      let g ← fetch (s.grammar grammar)
      let b ← attemptLogged (g.build target)
      return (.built b.value, s.putBuilt into b)
  | .analyze grammar into => do
      let g ← fetch (s.grammar grammar)
      let a ← attemptLogged g.analyze
      return (.built (.analysis a.value), s.putAnalysis into a)
  | .showAnalysis analysis => do
      let a ← fetch (s.analysis analysis)
      return (.analysis a.value, s)
  | .rebuild analysis target into => do
      let a ← fetch (s.analysis analysis)
      let b := a.rebuild target
      return (.built b.value, s.putBuilt into b)
  | .takeGrammar analysis into => do
      let a ← fetch (s.analysis analysis)
      return (.done, s.putGrammar into a.grammar)
  | .compareFirst left right => do
      let a ← fetch (s.analysis left)
      let b ← fetch (s.analysis right)
      let tables := a.value.first.table.same b.value.first.table
      return (.agreement tables (a.value.first.same b.value.first), s)
  | .firstSet analysis symbol => do
      let a ← fetch (s.analysis analysis)
      let symbol ← attempt (a.value.grammar.registry.dereference symbol)
      return (.firstSet (a.value.firstSet? symbol) (a.value.isNullable symbol), s)
  | .firstOf analysis string => do
      let a ← fetch (s.analysis analysis)
      let string ← attempt (string.mapM a.value.grammar.registry.dereference)
      return (.symbols (a.value.firstOf string), s)

/-- Carry out commands in order; a refused one changes nothing. The replies and
the last session. -/
def run (s : Session) : List Command → Logged (List (Except Refusal Reply) × Session)
  | [] => pure ([], s)
  | command :: rest => do
      match ← (s.step command).run with
      | .ok (reply, next) => do
          let (replies, last) ← next.run rest
          pure (.ok reply :: replies, last)
      | .error refusal => do
          let (replies, last) ← s.run rest
          pure (.error refusal :: replies, last)

end Lookahead.Session
