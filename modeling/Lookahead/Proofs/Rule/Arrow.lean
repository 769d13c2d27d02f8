import Lookahead.Rule
import Lookahead.Proofs.Text.Words

/-!
# Finding the arrow

`cut?` looks for the first place where the two characters of the arrow stand next
to each other. A side of a rule is cut off right there and nowhere before, even
when it ends in the first character of the arrow, because no arrow can begin in
the side and end in the one that follows (`cut?_append`).

Blanks keep the two characters apart, so a side has an arrow in it exactly when
one of its words does.
-/
namespace Lookahead.Rule

open Text

variable {text before after gap : List Char} {ws : List (List Char)} {c : Char}

/-- The two characters of the arrow stand nowhere next to each other. -/
def ArrowFree (text : List Char) : Prop := ¬ arrow.toList <:+: text

theorem toList_arrow : arrow.toList = ['-', '>'] := by decide

theorem arrowFree_nil : ArrowFree [] := by simp [ArrowFree, toList_arrow]

theorem arrowFree_cons :
    ArrowFree (c :: text) ↔ (c = '-' → text.head? ≠ some '>') ∧ ArrowFree text := by
  unfold ArrowFree
  rw [List.infix_cons_iff, not_or, toList_arrow, List.cons_prefix_cons,
    List.singleton_prefix_iff_head?_eq_some, not_and, eq_comm]

theorem ArrowFree.of_infix (h : ArrowFree text) (hi : before <:+: text) : ArrowFree before :=
  fun ha => h (ha.trans hi)

section Cut

theorem cut?_cons (h : c = '-' → text.head? ≠ some '>') :
    cut? (c :: text) = (cut? text).map fun e => (c :: e.1, e.2) := by
  rw [cut?]
  intro after hc ht
  exact h hc (by rw [ht, List.head?_cons])

theorem cut?_eq_none_iff : cut? text = none ↔ ArrowFree text := by
  fun_induction cut? text with
  | case1 => simp [arrowFree_nil]
  | case2 after => simp [arrowFree_cons]
  | case3 c text hne ih =>
      have hhead : c = '-' → text.head? ≠ some '>' := by
        intro hc ht
        obtain ⟨after, ha⟩ := List.head?_eq_some_iff.mp ht
        exact hne after hc ha
      rw [Option.map_eq_none_iff, ih, arrowFree_cons]
      exact ⟨fun h => ⟨hhead, h⟩, And.right⟩

instance (text : List Char) : Decidable (ArrowFree text) := decidable_of_iff _ cut?_eq_none_iff

/-- The first arrow is the one behind a text that has none. The text may end in
the first character of the arrow. -/
theorem cut?_append (hb : ArrowFree before) :
    cut? (before ++ '-' :: '>' :: after) = some (before, after) := by
  induction before with
  | nil => rfl
  | cons c before ih =>
      rw [arrowFree_cons] at hb
      have hhead : c = '-' → (before ++ '-' :: '>' :: after).head? ≠ some '>' := by
        intro hc
        cases before with
        | nil => simp
        | cons d before => exact hb.1 hc
      rw [List.cons_append, cut?_cons hhead, ih hb.2]
      rfl

theorem arrowFree_of_cut? (h : cut? text = some (before, after)) : ArrowFree before := by
  fun_induction cut? text generalizing before with
  | case1 => simp at h
  | case2 rest =>
      cases h
      exact arrowFree_nil
  | case3 c text hne ih =>
      obtain ⟨⟨b, a⟩, hb, he⟩ := Option.map_eq_some_iff.mp h
      cases he
      refine arrowFree_cons.mpr ⟨?_, ih hb⟩
      intro hc hhead
      obtain ⟨rest, rfl⟩ := List.head?_eq_some_iff.mp hhead
      rw [eq_of_cut? hb] at hne
      exact hne _ hc rfl

end Cut

section Words

theorem ArrowFree.append (hb : ArrowFree before) (ha : ArrowFree after)
    (h : after.head? ≠ some '>') : ArrowFree (before ++ after) := by
  induction before with
  | nil => exact ha
  | cons c before ih =>
      rw [arrowFree_cons] at hb
      refine arrowFree_cons.mpr ⟨?_, ih hb.2⟩
      cases before with
      | nil => exact fun _ => h
      | cons d before => exact hb.1

theorem ArrowFree.gap_append (ht : ArrowFree text) (hg : IsGap gap) : ArrowFree (gap ++ text) := by
  induction gap with
  | nil => exact ht
  | cons c gap ih =>
      have hc : c ≠ '-' := by
        rintro rfl
        exact absurd (hg '-' List.mem_cons_self) (by decide)
      refine arrowFree_cons.mpr ⟨fun h => absurd h hc, ?_⟩
      exact ih fun d hd => hg d (List.mem_cons_of_mem c hd)

theorem arrowFree_of_spread (hw : ∀ w ∈ ws, ArrowFree w) (h : Spread ws text) :
    ArrowFree text := by
  induction h with
  | @gap gap hg =>
      have hfree := arrowFree_nil.gap_append hg
      rwa [List.append_nil] at hfree
  | @word gap word text ws hg ht _ ih =>
      refine ArrowFree.gap_append ?_ hg
      apply (hw word List.mem_cons_self).append (ih fun w hm => hw w (List.mem_cons_of_mem word hm))
      intro hhead
      exact absurd (ht '>' hhead) (by decide)

theorem infix_of_spread {word : List Char} (h : Spread ws text) (hw : word ∈ ws) :
    word <:+: text := by
  induction h with
  | gap => cases hw
  | @word gap first text ws _ _ _ ih =>
      rcases List.mem_cons.mp hw with rfl | hw
      · exact ⟨gap, text, by rw [List.append_assoc]⟩
      · exact (ih hw).trans ((List.suffix_append first text).trans
          (List.suffix_append gap (first ++ text))).isInfix

end Words

end Lookahead.Rule
