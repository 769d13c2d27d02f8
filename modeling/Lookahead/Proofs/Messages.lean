import Lookahead.Fault
import Lookahead.Proofs.Text.Quoted

/-!
# Messages and the faults behind them

A message determines its fault. Its first letter gives the sort of the fault,
and within one sort the fixed parts, the numbers and the quoted texts are read
off from the left: a number ends at the blank behind it, a quoted text at its
closing quote. No message holds a control character, whatever the name or the
rule it quotes.
-/
namespace Lookahead

open Text

/-! ### Quoted texts -/

theorem toList_quote (text : String) : (quote text).toList = quoteChars text.toList :=
  String.toList_ofList

theorem quote_append_inj {s t u v : String} : quote s ++ u = quote t ++ v ↔ s = t ∧ u = v := by
  constructor
  · intro h
    have hchars := congrArg String.toList h
    simp only [String.toList_append, toList_quote] at hchars
    obtain ⟨htext, huv⟩ := selfDelimiting_quoteChars hchars
    exact ⟨String.toList_inj.mp htext, String.toList_inj.mp huv⟩
  · rintro ⟨rfl, rfl⟩
    rfl

/-! ### Numbers -/

section Numbers

variable {u v : List Char}

theorem decimal_injective : Function.Injective (Nat.toDigits 10) :=
  toDigits_injective (by decide) (by decide)

theorem blank_notMem_decimal (n : Nat) : ' ' ∉ Nat.toDigits 10 n :=
  notMem_toDigits (by decide) (by decide) n

theorem toList_ofNat (n : Nat) : (toString (Int.ofNat n)).toList = Nat.toDigits 10 n :=
  Nat.toList_repr

theorem toList_negSucc (n : Nat) :
    (toString (Int.negSucc n)).toList = '-' :: Nat.toDigits 10 (n + 1) := by
  have hrepr : toString (Int.negSucc n) = "-" ++ (n + 1).repr := rfl
  rw [hrepr, String.toList_append, Nat.toList_repr]
  rfl

theorem toList_int_injective : Function.Injective fun i : Int => (toString i).toList := by
  have hsign : ∀ n, '-' ∉ Nat.toDigits 10 n := notMem_toDigits (by decide) (by decide)
  intro i j h
  cases i with
  | ofNat m =>
      cases j with
      | ofNat n =>
          simp only [toList_ofNat] at h
          rw [decimal_injective h]
      | negSucc n =>
          simp only [toList_ofNat, toList_negSucc] at h
          exact absurd (h ▸ List.mem_cons_self) (hsign m)
  | negSucc m =>
      cases j with
      | ofNat n =>
          simp only [toList_ofNat, toList_negSucc] at h
          exact absurd (h ▸ List.mem_cons_self) (hsign n)
      | negSucc n =>
          simp only [toList_negSucc] at h
          rw [Nat.succ_injective (decimal_injective (List.cons.inj h).2)]

theorem blank_notMem_int (i : Int) : ' ' ∉ (toString i).toList := by
  cases i with
  | ofNat n =>
      rw [toList_ofNat]
      exact blank_notMem_decimal n
  | negSucc n =>
      rw [toList_negSucc, List.mem_cons, not_or]
      exact ⟨by decide, blank_notMem_decimal (n + 1)⟩

/-- The index of a production, with the blank behind it. -/
theorem index_append_inj {m n : Nat} :
    (toString m).toList ++ ' ' :: u = (toString n).toList ++ ' ' :: v ↔ m = n ∧ u = v := by
  rw [Nat.toString_eq_repr, Nat.toString_eq_repr, Nat.toList_repr, Nat.toList_repr]
  exact append_mark_inj decimal_injective blank_notMem_decimal

/-- The identity of a symbol, with the blank behind it. -/
theorem id_append_inj {i j : Int} :
    (toString i).toList ++ ' ' :: u = (toString j).toList ++ ' ' :: v ↔ i = j ∧ u = v :=
  append_mark_inj toList_int_injective blank_notMem_int

end Numbers

/-! ### Reading a message -/

theorem UnresolvedName.message_injective : Function.Injective UnresolvedName.message := by
  intro f g h
  unfold UnresolvedName.message at h
  have hquote : quote f.name = quote g.name := (String.append_right_inj _).mp h
  have hname : f.name = g.name := (quote_append_inj.mp (congrArg (· ++ "") hquote)).1
  cases f
  exact congrArg UnresolvedName.mk hname

theorem UnresolvedName.head?_message (f : UnresolvedName) : f.message.toList.head? = some 'n' := by
  unfold UnresolvedName.message
  simp

/-- No other reason begins with the letter of an unresolved name. -/
theorem RuleDefect.message_injective : Function.Injective RuleDefect.message := by
  have other : ∀ {cause : UnresolvedName} {text : String}, text.toList.head? ≠ some 'n' →
      cause.message ≠ text := by
    rintro cause _ htext rfl
    exact htext cause.head?_message
  intro f g h
  cases f with
  | unresolved f =>
      cases g with
      | unresolved g => exact congrArg unresolved (UnresolvedName.message_injective h)
      | noArrow | manyArrows | noLeftSide | noRightSide => exact absurd h (other (by decide))
  | noArrow | manyArrows | noLeftSide | noRightSide =>
      cases g with
      | unresolved g => exact absurd h.symm (other (by decide))
      | noArrow | manyArrows | noLeftSide | noRightSide => first | rfl | exact absurd h (by decide)

theorem RuleFault.message_injective : Function.Injective RuleFault.message := by
  intro f g h
  unfold RuleFault.message at h
  simp only [String.append_assoc, String.append_right_inj, quote_append_inj] at h
  obtain ⟨hrule, hdefect⟩ := h
  cases f
  cases g
  simp only at hrule hdefect
  rw [hrule, RuleDefect.message_injective hdefect]

/-- The productions and the start symbol are told apart by the first letter, the
faults of either by the words behind the number. -/
theorem AssemblyFault.message_injective : Function.Injective AssemblyFault.message := by
  intro f g h
  have hchars := congrArg String.toList h
  unfold AssemblyFault.message at hchars
  cases f <;> cases g <;>
    simp only [String.toList_append, String.reduceToList, List.append_assoc, List.cons_append,
      List.nil_append, List.cons.injEq, Char.reduceEq, index_append_inj, id_append_inj, true_and,
      and_true, false_and, and_false] at hchars
  · rw [hchars]
  · rw [hchars]
  · rw [hchars.1, hchars.2]
  · rw [hchars]
  · rw [hchars]

namespace Fault

/-- The first letter of the message. -/
def initial : Fault → Char
  | name _ => 'n'
  | rule _ => 'i'
  | assembly (.noLeftSide _) | assembly (.noRightSide _) | assembly (.strangeSymbol ..) => 'p'
  | assembly (.strangeStart _) | assembly (.terminalStart _) => 's'
  | notContextFree => 'c'

theorem head?_message (f : Fault) : f.message.toList.head? = some f.initial := by
  unfold message
  cases f with
  | name cause => exact cause.head?_message
  | rule cause =>
      unfold RuleFault.message
      simp [initial]
  | assembly cause =>
      unfold AssemblyFault.message
      cases cause <;> simp [initial]
  | notContextFree => simp [initial]

theorem message_injective : Function.Injective message := by
  intro f g h
  have hinitial : f.initial = g.initial := by
    rw [← Option.some_inj, ← head?_message, ← head?_message, h]
  cases f with
  | name f =>
      cases g with
      | name g => exact congrArg name (UnresolvedName.message_injective h)
      | rule | notContextFree => simp [initial] at hinitial
      | assembly g => cases g <;> simp [initial] at hinitial
  | rule f =>
      cases g with
      | rule g => exact congrArg rule (RuleFault.message_injective h)
      | name | notContextFree => simp [initial] at hinitial
      | assembly g => cases g <;> simp [initial] at hinitial
  | assembly f =>
      cases g with
      | assembly g => exact congrArg assembly (AssemblyFault.message_injective h)
      | name | rule | notContextFree => cases f <;> simp [initial] at hinitial
  | notContextFree =>
      cases g with
      | notContextFree => rfl
      | name | rule => simp [initial] at hinitial
      | assembly g => cases g <;> simp [initial] at hinitial

end Fault

/-! ### Printable messages -/

theorem printable_quote (text : String) : Printable (quote text).toList := by
  rw [toList_quote]
  exact printable_quoteChars text.toList

theorem printable_index (n : Nat) : Printable (toString n).toList := by
  rw [Nat.toString_eq_repr, Nat.toList_repr]
  exact printable_toDigits (by decide) (by decide) n

theorem printable_id (i : Int) : Printable (toString i).toList := by
  cases i with
  | ofNat n => exact printable_index n
  | negSucc n =>
      rw [toList_negSucc]
      have hsign : Printable ['-'] := printable_of_visible (by decide)
      exact printable_append.mpr ⟨hsign, printable_toDigits (by decide) (by decide) (n + 1)⟩

theorem UnresolvedName.printable_message (f : UnresolvedName) : Printable f.message.toList := by
  unfold UnresolvedName.message
  simp only [String.toList_append, printable_append]
  exact ⟨printable_of_visible (by decide), printable_quote f.name⟩

theorem RuleDefect.printable_message (f : RuleDefect) : Printable f.message.toList := by
  cases f with
  | unresolved cause => exact cause.printable_message
  | noArrow | manyArrows | noLeftSide | noRightSide => exact printable_of_visible (by decide)

theorem RuleFault.printable_message (f : RuleFault) : Printable f.message.toList := by
  unfold RuleFault.message
  simp only [String.toList_append, printable_append]
  exact ⟨⟨⟨printable_of_visible (by decide), printable_quote f.rule⟩,
    printable_of_visible (by decide)⟩, f.defect.printable_message⟩

theorem AssemblyFault.printable_message (f : AssemblyFault) : Printable f.message.toList := by
  unfold AssemblyFault.message
  cases f with
  | noLeftSide index | noRightSide index =>
      simp only [String.toList_append, printable_append]
      exact ⟨⟨printable_of_visible (by decide), printable_index index⟩,
        printable_of_visible (by decide)⟩
  | strangeSymbol index id =>
      simp only [String.toList_append, printable_append]
      exact ⟨⟨⟨⟨printable_of_visible (by decide), printable_index index⟩,
        printable_of_visible (by decide)⟩, printable_id id⟩, printable_of_visible (by decide)⟩
  | strangeStart id | terminalStart id =>
      simp only [String.toList_append, printable_append]
      exact ⟨⟨printable_of_visible (by decide), printable_id id⟩, printable_of_visible (by decide)⟩

namespace Fault

theorem printable_message (f : Fault) : Printable f.message.toList := by
  cases f with
  | name cause => exact cause.printable_message
  | rule cause => exact cause.printable_message
  | assembly cause => exact cause.printable_message
  | notContextFree => exact printable_of_visible (by decide)

/-- A message names one fault, with all its parts, and shows no control character. -/
theorem message_injective_printable :
    (∀ f g : Fault, f.message = g.message → f = g) ∧
      ∀ f : Fault, ∀ c ∈ f.message.toList,
        isUnprintable c = false ∧ ¬ (c.toNat ≤ 0x1f ∨ 0x7f ≤ c.toNat ∧ c.toNat ≤ 0x9f) := by
  refine ⟨fun f g h => message_injective h, fun f c hc => ?_⟩
  have hshown : isUnprintable c = false := f.printable_message c hc
  refine ⟨hshown, fun hcontrol => ?_⟩
  rw [isUnprintable_of_control hcontrol] at hshown
  contradiction

/-- Two rules without a known name. Written without escapes, their messages would be
the same. -/
def lookAlikes : Fault × Fault :=
  (rule ⟨"x", .unresolved ⟨"y\": name not found: \"z\n"⟩⟩,
    rule ⟨"x\": name not found: \"y", .unresolved ⟨"z\n"⟩⟩)

theorem message_injective_printable_lookAlikes :
    lookAlikes.1.message ≠ lookAlikes.2.message ∧ '\n' ∉ lookAlikes.1.message.toList := by
  constructor
  · intro h
    exact absurd (message_injective_printable.1 _ _ h) (by decide)
  · intro h
    exact (message_injective_printable.2 _ '\n' h).2 (by decide)

end Fault

end Lookahead
