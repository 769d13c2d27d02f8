import Lookahead.Ascending
import Mathlib.Data.Finset.Sort
import Mathlib.Data.List.Sort

/-!
# Ascending lists and their members

A list that ascends by a key is determined by its members. So the list of the
distinct elements of another one is the sorted list of a finite set, whatever the
order in which the elements came and however often.
-/
namespace Lookahead.Ascending

section Keys

variable {α κ : Type} [Preorder κ] (key : α → κ) {k l : List α}

theorem eq_of_mem_iff (hk : k.Pairwise (key · < key ·)) (hl : l.Pairwise (key · < key ·))
    (h : ∀ a, a ∈ k ↔ a ∈ l) : k = l := by
  have : Std.Irrefl fun a b : α => key a < key b := ⟨fun a => lt_irrefl (key a)⟩
  have : Std.Antisymm fun a b : α => key a < key b :=
    ⟨fun _ _ hab hba => absurd hba (lt_asymm hab)⟩
  exact hk.eq_of_mem_iff hl @h

/-- A key finds the one entry that holds it. -/
theorem find?_eq_some_iff [DecidableEq κ] (hl : l.Pairwise (key · < key ·)) {c : κ} {a : α} :
    l.find? (key · = c) = some a ↔ a ∈ l ∧ key a = c := by
  constructor
  · intro h
    exact ⟨List.mem_of_find?_eq_some h, by simpa using List.find?_some h⟩
  · intro h
    obtain ⟨ha, hac⟩ := h
    have hsome : (l.find? (key · = c)).isSome :=
      List.find?_isSome.mpr ⟨a, ha, by simpa using hac⟩
    obtain ⟨b, hb⟩ := Option.isSome_iff_exists.mp hsome
    have hbc : key b = c := by simpa using List.find?_some hb
    -- Keys ascend strictly, so a key has one entry.
    have hnodup : (l.map key).Nodup := (List.pairwise_map.mpr hl).imp ne_of_lt
    have hba : b = a :=
      List.inj_on_of_nodup_map hnodup (List.mem_of_find?_eq_some hb) ha (hbc.trans hac.symm)
    rw [hb, hba]

end Keys

section Distinct

variable {α : Type} [LinearOrder α] {k l : List α}

/-- An ascending list of the members of `l` is the list of its distinct elements. -/
theorem eq_distinct_iff :
    k = distinct l ↔ k.Pairwise (· < ·) ∧ ∀ a, a ∈ k ↔ a ∈ l := by
  constructor
  · rintro rfl
    exact ⟨pairwise_distinct l, fun _ => mem_distinct⟩
  · intro h
    apply eq_of_mem_iff (fun a => a) h.1 (pairwise_distinct l)
    intro a
    rw [h.2, mem_distinct]

theorem distinct_congr (h : ∀ a, a ∈ k ↔ a ∈ l) : distinct k = distinct l :=
  eq_distinct_iff.mpr ⟨pairwise_distinct k, fun a => mem_distinct.trans (h a)⟩

theorem distinct_eq_sort (l : List α) : distinct l = l.toFinset.sort := by
  refine (eq_distinct_iff.mpr ⟨?_, fun a => ?_⟩).symm
  · exact (Finset.sortedLT_sort _).pairwise
  · rw [Finset.mem_sort, List.mem_toFinset]

end Distinct

end Lookahead.Ascending
