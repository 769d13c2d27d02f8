import Lookahead.Production
import Lookahead.Registry
import Lookahead.Text.Words

/-!
# Rules

A rule is the text of one production: the names of the left side, an arrow,
the names of the right side, with blanks between names. The arrow is found
wherever its two characters stand next to each other, so no blank is needed
around it.

A rule with a wrong number of arrows is refused before any name is looked up,
and an unknown name is reported before an empty side.
-/
namespace Lookahead.Rule

/-- The arrow between the sides of a rule. -/
def arrow : String := "->"

/-- The text before and after its first arrow. -/
def cut? : List Char → Option (List Char × List Char)
  | [] => none
  | '-' :: '>' :: after => some ([], after)
  | c :: text => (cut? text).map fun (before, after) => (c :: before, after)

/-- Cutting loses nothing but the arrow. -/
theorem eq_of_cut? {text before after : List Char} (h : cut? text = some (before, after)) :
    text = before ++ '-' :: '>' :: after := by
  fun_induction cut? text generalizing before with
  | case1 => simp at h
  | case2 rest => simp_all
  | case3 c text _ ih =>
      obtain ⟨⟨b, a⟩, hb, he⟩ := Option.map_eq_some_iff.mp h
      cases he
      simpa using ih hb

/-- The symbols that the words of one side name. -/
def resolveSide (r : Registry) (side : List Char) : Except RuleDefect (List Symbol) :=
  (Text.words side).mapM fun word =>
    (r.resolve (String.ofList word)).mapError RuleDefect.unresolved

/-- The production that the two sides name. -/
def ofSides (r : Registry) (left right : List Char) : Except RuleDefect Production := do
  let lhs ← resolveSide r left
  let rhs ← resolveSide r right
  if lhs.isEmpty then .error .noLeftSide
  else if rhs.isEmpty then .error .noRightSide
  else .ok ⟨lhs, rhs⟩

def ofChars (r : Registry) (text : List Char) : Except RuleDefect Production :=
  match cut? text with
  | none => .error .noArrow
  | some (left, right) =>
      match cut? right with
      | some _ => .error .manyArrows
      | none => ofSides r left right

/-- The production that a rule writes down. -/
def read (r : Registry) (text : String) : Except RuleFault Production :=
  (ofChars r text.toList).mapError (RuleFault.mk text)

end Lookahead.Rule
