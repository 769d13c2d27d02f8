import Lookahead.Symbol.Basic
import Lookahead.Text.Quoted

/-!
# Events

What a computation reports while it runs. `Logged` carries the events next to
the value, in the order in which they happened.
-/
namespace Lookahead

inductive Level where
  | debug
  | trace
  deriving Repr, DecidableEq

inductive Event where
  /-- A name got an identity of its own. -/
  | issued (name : String) (symbol : Symbol)
  /-- A grammar was put together. -/
  | assembled (symbols productions : Nat)
  /-- A round over the table of first symbols ended. -/
  | round (number : Nat) (changed : Bool)
  /-- The rounds came to rest. -/
  | settled (entries rounds : Nat)
  deriving Repr, DecidableEq

namespace Event

def level : Event → Level
  | issued .. | round .. => .trace
  | assembled .. | settled .. => .debug

def text : Event → String
  | issued name symbol => "allocate " ++ Text.quote name ++ " as " ++ symbol.text
  | assembled symbols productions =>
      "grammar with " ++ toString symbols ++ " symbols and " ++
        toString productions ++ " productions"
  | round number changed =>
      "FIRST pass " ++ toString number ++ ": changed = " ++ if changed then "true" else "false"
  | settled entries rounds =>
      "FIRST sets for " ++ toString entries ++ " symbols converged after " ++
        toString rounds ++ " passes"

end Event

structure Logged (α : Type) where
  value : α
  log : List Event
  deriving Repr

namespace Logged

variable {α β : Type}

instance : Monad Logged where
  pure a := ⟨a, []⟩
  bind m f := ⟨(f m.value).value, m.log ++ (f m.value).log⟩

/-- Report one event. -/
def emit (e : Event) : Logged Unit := ⟨(), [e]⟩

@[simp] theorem value_pure (a : α) : (pure a : Logged α).value = a := rfl

@[simp] theorem log_pure (a : α) : (pure a : Logged α).log = [] := rfl

@[simp] theorem value_bind (m : Logged α) (f : α → Logged β) :
    (m >>= f).value = (f m.value).value := rfl

@[simp] theorem log_bind (m : Logged α) (f : α → Logged β) :
    (m >>= f).log = m.log ++ (f m.value).log := rfl

@[simp] theorem value_map (f : α → β) (m : Logged α) : (f <$> m).value = f m.value := rfl

@[simp] theorem log_map (f : α → β) (m : Logged α) : (f <$> m).log = m.log :=
  List.append_nil m.log

@[simp] theorem log_emit (e : Event) : (emit e).log = [e] := rfl

instance : LawfulMonad Logged := LawfulMonad.mk' Logged
  (fun m => congrArg (Logged.mk m.value) (List.append_nil m.log))
  (fun _ _ => rfl)
  (fun m f g => congrArg (Logged.mk _) (List.append_assoc m.log _ _))

end Logged

end Lookahead
