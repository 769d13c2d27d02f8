import Lookahead.Text.Quoted

/-!
# Faults

The causes for which a name, a rule, the parts of a grammar or an analysis is
refused, and the message for each.
-/
namespace Lookahead

/-- A name that stands for no symbol. -/
structure UnresolvedName where
  name : String
  deriving Repr, DecidableEq

def UnresolvedName.message (f : UnresolvedName) : String := "name not found: " ++ Text.quote f.name

/-- What is wrong with the text of a rule. -/
inductive RuleDefect where
  | noArrow
  | manyArrows
  | noLeftSide
  | noRightSide
  | unresolved (cause : UnresolvedName)
  deriving Repr, DecidableEq

def RuleDefect.message : RuleDefect → String
  | noArrow => "missing `->` separator"
  | manyArrows => "more than one `->` separator"
  | noLeftSide => "empty left-hand side"
  | noRightSide => "empty right-hand side"
  | unresolved cause => cause.message

/-- A rule that is refused, with its whole text. -/
structure RuleFault where
  rule : String
  defect : RuleDefect
  deriving Repr, DecidableEq

def RuleFault.message (f : RuleFault) : String :=
  "invalid production " ++ Text.quote f.rule ++ ": " ++ f.defect.message

/-- Why a grammar cannot be put together; `index` counts productions from zero. -/
inductive AssemblyFault where
  | noLeftSide (index : Nat)
  | noRightSide (index : Nat)
  | strangeSymbol (index : Nat) (id : Int)
  | strangeStart (id : Int)
  | terminalStart (id : Int)
  deriving Repr, DecidableEq

def AssemblyFault.message : AssemblyFault → String
  | noLeftSide index => "production " ++ toString index ++ " has an empty left-hand side"
  | noRightSide index => "production " ++ toString index ++ " has an empty right-hand side"
  | strangeSymbol index id =>
      "production " ++ toString index ++ " refers to symbol " ++ toString id ++
        " unknown to the registry"
  | strangeStart id => "start symbol " ++ toString id ++ " is unknown to the registry"
  | terminalStart id => "start symbol " ++ toString id ++ " is not a nonterminal"

inductive Fault where
  | name (cause : UnresolvedName)
  | rule (cause : RuleFault)
  | assembly (cause : AssemblyFault)
  | notContextFree
  deriving Repr, DecidableEq

namespace Fault

def message : Fault → String
  | name cause => cause.message
  | rule cause => cause.message
  | assembly cause => cause.message
  | notContextFree => "cannot analyze a non-context-free grammar for LL(1)"

/-- The message of the fault behind this one. Only a rule with an unknown name has one. -/
def source? : Fault → Option String
  | rule ⟨_, .unresolved cause⟩ => some cause.message
  | _ => none

end Fault

end Lookahead
