import Lookahead.Proofs.First.Derivation

/-!
# First symbols and the language

A word is a string of letters, and a nonterminal generates the words that it
derives. What begins such a word was found by the analysis, since a word is one
of the derived strings.

Conversely a letter that begins some derived string need not begin a word: a
symbol further back may derive no word at all. Where every symbol of a right side
is productive, no such symbol ever comes up, as a derivation takes its symbols
from right sides (`Step.productive`), and the rest of the string can be completed
to a word symbol by symbol.
-/
namespace Lookahead.Grammar

variable {g : Grammar} {s a n : Symbol} {α β w : List Symbol}

/-- A string of letters. -/
def Word (g : Grammar) (w : List Symbol) : Prop := ∀ s ∈ w, g.Letter s

/-- Some word is derived from `α`. -/
def Productive (g : Grammar) (α : List Symbol) : Prop := ∃ w, g.Word w ∧ g.Derives α w

/-- Some word that `α` derives begins with the identity of `a`. -/
def BeginsWord (g : Grammar) (α : List Symbol) (a : Symbol) : Prop :=
  ∃ s w, s.id = a.id ∧ g.Word (s :: w) ∧ g.Derives α (s :: w)

/-- Every symbol on the right of a production of a nonterminal is productive. -/
def Reduced (g : Grammar) : Prop :=
  ∀ n ∈ g.registry.nonterminals, ∀ p ∈ g.productionsOf n, ∀ s ∈ p.rhs, g.Productive [s]

theorem Reduced.productive (h : g.Reduced) {p : Production} (hp : g.Rewrites n p) (hs : s ∈ p.rhs) :
    g.Productive [s] := by
  obtain ⟨⟨m, hm, hid⟩, hp⟩ := hp
  rw [← productionsOf_congr hid] at hp
  exact h m hm p hp s hs

section Productive

theorem Productive.nil (g : Grammar) : g.Productive [] := ⟨[], by simp [Word], .refl⟩

theorem Word.append (hα : g.Word α) (hβ : g.Word β) : g.Word (α ++ β) :=
  List.forall_mem_append.mpr ⟨hα, hβ⟩

/-- The parts of a string derive words side by side. -/
theorem Productive.append (hα : g.Productive α) (hβ : g.Productive β) :
    g.Productive (α ++ β) := by
  obtain ⟨v, hv, hαv⟩ := hα
  obtain ⟨w, hw, hβw⟩ := hβ
  exact ⟨v ++ w, hv.append hw, (hαv.append_right β).trans (hβw.append_left v)⟩

/-- A step brings in symbols of right sides only. -/
theorem Step.productive (hg : g.Reduced) (h : g.Step α β) (hα : ∀ s ∈ α, g.Productive [s]) :
    ∀ s ∈ β, g.Productive [s] := by
  cases h with
  | @rewrite n p α β hp =>
      obtain ⟨hl, hr⟩ := List.forall_mem_append.mp hα
      intro s hs
      rcases List.mem_append.mp hs with hs | hs
      · exact hl s hs
      · rcases List.mem_append.mp hs with hs | hs
        · exact hg.productive hp hs
        · exact hr s (List.mem_cons_of_mem n hs)
  | @erase n α β _ =>
      obtain ⟨hl, hr⟩ := List.forall_mem_append.mp hα
      intro s hs
      rcases List.mem_append.mp hs with hs | hs
      · exact hl s hs
      · exact hr s (List.mem_cons_of_mem n hs)

theorem Derives.productive (hg : g.Reduced) (h : g.Derives α β)
    (hα : ∀ s ∈ α, g.Productive [s]) : ∀ s ∈ β, g.Productive [s] := by
  induction h with
  | refl => exact hα
  | tail _ hs ih => exact hs.productive hg ih

end Productive

theorem BeginsWord.begins (h : g.BeginsWord α a) : g.Letter a ∧ g.Begins α a := by
  obtain ⟨s, w, hs, hw, hd⟩ := h
  exact ⟨(letter_congr hs).mp (hw s List.mem_cons_self), s, w, hs, hd⟩

end Lookahead.Grammar
