import Lookahead.Proofs.Session.Flow
import Mathlib.Data.List.Induction

/-!
# Where grammars and analyses come from

The number that a session keeps with a grammar stands for the assembly that the
grammar goes back to. `TracesTo` says what that means without any number in the
session: it follows a run of commands back, through copies and analyses, to the
command that put the grammar together. The invariant behind all that follows is
`Recorded`: the assemblies of a run, in their order, are a list of positions and
grammars, and the number of whatever is held is its place in this list.

So sharing an origin is coming from one command, and two assemblies never share,
even of equal parts. What shares is the same grammar, and the first sets kept with
it are those that it has.
-/
namespace Lookahead.Session

variable {commands : List Command} {command : Command} {h into source : Holder} {i : ℕ}

section Traces

/-- After these commands, what is held there goes back to the assembly that the
command at position `i` has made. -/
inductive TracesTo : List Command → Holder → ℕ → Prop
  | assembly {commands : List Command} {command : Command} {into : Holder} :
      (after commands).Accepts command → command.flow = .assembly into →
      TracesTo (commands ++ [command]) into commands.length
  | transfer {commands : List Command} {command : Command} {source into : Holder} {i : ℕ} :
      (after commands).Accepts command → command.flow = .transfer source into →
      TracesTo commands source i → TracesTo (commands ++ [command]) into i
  | keep {commands : List Command} {command : Command} {h : Holder} {i : ℕ} :
      ((after commands).Accepts command → command.flow.into? ≠ some h) →
      TracesTo commands h i → TracesTo (commands ++ [command]) h i

theorem not_tracesTo_nil : ¬ TracesTo [] h i := by
  intro ht
  generalize hl : ([] : List Command) = commands at ht
  cases ht <;> simp at hl

/-- The last command decides about the holder that it fills, and about no other. -/
theorem tracesTo_concat_iff :
    TracesTo (commands ++ [command]) h i ↔
      ((after commands).Accepts command ∧ command.flow = .assembly h ∧ i = commands.length) ∨
        (∃ source, (after commands).Accepts command ∧ command.flow = .transfer source h ∧
          TracesTo commands source i) ∨
        (((after commands).Accepts command → command.flow.into? ≠ some h) ∧
          TracesTo commands h i) := by
  constructor
  · intro ht
    generalize hl : commands ++ [command] = all at ht
    cases ht with
    | assembly ha hf =>
        obtain ⟨rfl, hc⟩ := List.append_inj' hl rfl
        cases hc
        exact .inl ⟨ha, hf, rfl⟩
    | transfer ha hf ht =>
        obtain ⟨rfl, hc⟩ := List.append_inj' hl rfl
        cases hc
        exact .inr (.inl ⟨_, ha, hf, ht⟩)
    | keep hk ht =>
        obtain ⟨rfl, hc⟩ := List.append_inj' hl rfl
        cases hc
        exact .inr (.inr ⟨hk, ht⟩)
  · intro ht
    rcases ht with ⟨ha, hf, rfl⟩ | ⟨source, ha, hf, ht⟩ | ⟨hk, ht⟩
    · exact .assembly ha hf
    · exact .transfer ha hf ht
    · exact .keep hk ht

theorem tracesTo_concat_of_ne
    (hne : (after commands).Accepts command → command.flow.into? ≠ some h) :
    TracesTo (commands ++ [command]) h = TracesTo commands h := by
  funext i
  rw [eq_iff_iff, tracesTo_concat_iff]
  constructor
  · intro ht
    rcases ht with ⟨ha, hf, _⟩ | ⟨_, ha, hf, _⟩ | ht
    · exact absurd (by rw [hf]; rfl) (hne ha)
    · exact absurd (by rw [hf]; rfl) (hne ha)
    · exact ht.2
  · exact fun ht => .inr (.inr ⟨hne, ht⟩)

theorem tracesTo_concat_eq_update {traces : ℕ → Prop} (hinto : command.flow.into? = some into)
    (h : ∀ i, TracesTo (commands ++ [command]) into i ↔ traces i) :
    TracesTo (commands ++ [command]) = Function.update (TracesTo commands) into traces := by
  funext k
  by_cases hk : k = into
  · rw [hk, Function.update_self]
    funext i
    exact propext (h i)
  · rw [Function.update_of_ne hk]
    apply tracesTo_concat_of_ne
    intro _ hfill
    rw [hinto] at hfill
    exact hk (Option.some.inj hfill).symm

theorem tracesTo_concat_assembly (ha : (after commands).Accepts command)
    (hf : command.flow = .assembly into) :
    TracesTo (commands ++ [command]) =
      Function.update (TracesTo commands) into (· = commands.length) := by
  apply tracesTo_concat_eq_update (by rw [hf]; rfl)
  intro i
  rw [tracesTo_concat_iff, hf]
  simp [ha, Flow.into?]

theorem tracesTo_concat_transfer (ha : (after commands).Accepts command)
    (hf : command.flow = .transfer source into) :
    TracesTo (commands ++ [command]) =
      Function.update (TracesTo commands) into (TracesTo commands source) := by
  apply tracesTo_concat_eq_update (by rw [hf]; rfl)
  intro i
  rw [tracesTo_concat_iff, hf]
  simp [ha, Flow.into?]

end Traces

section Recorded

/-- The assemblies of a run, each with the position of its command. -/
abbrev Calls := List (ℕ × Grammar)

variable {calls : Calls}

/-- What a holder holds is recorded under its number, at the position that the
holder is traced to. An empty one is traced to nothing. -/
inductive Recorded (calls : Calls) : Option (Sourced Artifact) → (ℕ → Prop) → Prop
  | empty : Recorded calls none fun _ => False
  | held {x : Sourced Artifact} {i : ℕ} : calls[x.origin]? = some (i, x.value.base) →
      x.value.Fresh → Recorded calls (some x) (· = i)

theorem Recorded.concat {content : Option (Sourced Artifact)} {traces : ℕ → Prop}
    (h : Recorded calls content traces) (call : ℕ × Grammar) :
    Recorded (calls ++ [call]) content traces := by
  cases h with
  | empty => exact .empty
  | held hx hf =>
      refine .held ?_ hf
      rw [List.getElem?_append_left (List.getElem?_eq_some_iff.mp hx).1]
      exact hx

theorem Recorded.transfer {x y : Sourced Artifact} {traces : ℕ → Prop}
    (h : Recorded calls (some x) traces) (ht : Transferred x y) :
    Recorded calls (some y) traces := by
  cases h with
  | held hx hf =>
      rw [← ht.origin, ← ht.base] at hx
      exact .held hx (ht.fresh hf)

theorem recorded_update {held : Holder → Option (Sourced Artifact)} {traced : Holder → ℕ → Prop}
    {content : Option (Sourced Artifact)} {traces : ℕ → Prop}
    (h : ∀ k, Recorded calls (held k) (traced k)) (hinto : Recorded calls content traces)
    (k : Holder) :
    Recorded calls (Function.update held into content k) (Function.update traced into traces k) := by
  by_cases hk : k = into
  · subst hk
    rw [Function.update_self, Function.update_self]
    exact hinto
  · rw [Function.update_of_ne hk, Function.update_of_ne hk]
    exact h k

/-- The calls are the assemblies of this run, in their order. -/
structure Ledger (commands : List Command) (calls : Calls) : Prop where
  count : (after commands).assemblies = calls.length
  rising : calls.Pairwise (·.1 < ·.1)
  before : ∀ call ∈ calls, call.1 < commands.length
  recorded : ∀ h, Recorded calls ((after commands).held? h) (TracesTo commands h)

theorem ledger_nil : Ledger [] [] where
  count := rfl
  rising := .nil
  before := by simp
  recorded h := by
    have hnone : (after []).held? h = none := by
      cases h <;> simp [after_nil, empty, held?]
    have htraces : TracesTo [] h = fun _ => False := by
      funext i
      simp [not_tracesTo_nil]
    rw [hnone, htraces]
    exact .empty

theorem Ledger.keep (h : Ledger commands calls)
    (hcount : (after (commands ++ [command])).assemblies = (after commands).assemblies)
    (hrecorded : ∀ k, Recorded calls ((after (commands ++ [command])).held? k)
      (TracesTo (commands ++ [command]) k)) :
    Ledger (commands ++ [command]) calls where
  count := hcount.trans h.count
  rising := h.rising
  before call hcall := by
    have hlt := h.before call hcall
    rw [List.length_append]
    omega
  recorded := hrecorded

theorem Ledger.assembly (h : Ledger commands calls) {g : Grammar}
    (hcount : (after (commands ++ [command])).assemblies = (after commands).assemblies + 1)
    (hrecorded : ∀ k, Recorded (calls ++ [(commands.length, g)])
      ((after (commands ++ [command])).held? k) (TracesTo (commands ++ [command]) k)) :
    Ledger (commands ++ [command]) (calls ++ [(commands.length, g)]) where
  count := by rw [hcount, h.count, List.length_append, List.length_singleton]
  rising := by
    rw [List.pairwise_append]
    refine ⟨h.rising, List.pairwise_singleton _ _, fun call hcall last hlast => ?_⟩
    rw [List.mem_singleton.mp hlast]
    exact h.before call hcall
  before call hcall := by
    rw [List.length_append, List.length_singleton]
    cases List.mem_append.mp hcall with
    | inl hcall => exact Nat.lt_succ_of_lt (h.before call hcall)
    | inr hcall =>
        rw [List.mem_singleton.mp hcall]
        exact Nat.lt_succ_self _
  recorded := hrecorded

theorem Ledger.concat (h : Ledger commands calls) (command : Command) :
    ∃ calls, Ledger (commands ++ [command]) calls := by
  by_cases ha : (after commands).Accepts command
  · have heffect := effect_next ha
    rw [← after_concat] at heffect
    generalize hf : command.flow = flow at heffect
    cases heffect with
    | nothing hcount hheld =>
        refine ⟨calls, h.keep hcount fun k => ?_⟩
        rw [hheld, tracesTo_concat_of_ne (by simp [hf, Flow.into?])]
        exact h.recorded k
    | @assembly into g hcount hheld =>
        have hlast : (calls ++ [(commands.length, g)])[(after commands).assemblies]? =
            some (commands.length, g) := by
          rw [h.count, List.getElem?_concat_length]
        have hnew : Recorded (calls ++ [(commands.length, g)])
            (some ⟨(after commands).assemblies, .grammar g⟩) (· = commands.length) :=
          .held hlast trivial
        refine ⟨calls ++ [(commands.length, g)], h.assembly hcount fun k => ?_⟩
        rw [hheld, tracesTo_concat_assembly ha hf]
        exact recorded_update (fun k => (h.recorded k).concat _) hnew k
    | @transfer source into x y hcount hsource ht hheld =>
        refine ⟨calls, h.keep hcount fun k => ?_⟩
        rw [hheld, tracesTo_concat_transfer ha hf]
        have hx := h.recorded source
        rw [hsource] at hx
        exact recorded_update h.recorded (hx.transfer ht) k
  · have hsame : after (commands ++ [command]) = after commands := by
      rw [after_concat, next_of_not_accepts ha]
    refine ⟨calls, h.keep (by rw [hsame]) fun k => ?_⟩
    rw [hsame, tracesTo_concat_of_ne fun haccepts => absurd haccepts ha]
    exact h.recorded k

theorem exists_ledger (commands : List Command) : ∃ calls, Ledger commands calls := by
  induction commands using List.reverseRecOn with
  | nil => exact ⟨[], ledger_nil⟩
  | append_singleton commands command ih =>
      obtain ⟨calls, h⟩ := ih
      exact h.concat command

end Recorded

end Lookahead.Session
