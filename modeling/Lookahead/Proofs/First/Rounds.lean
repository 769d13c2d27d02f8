import Lookahead.Proofs.First.Round
import Mathlib.Data.Finset.Card
import Mathlib.Order.Iterate
import Mathlib.Order.Monotone.Basic

/-!
# Tables after many rounds

`tableAfter k` is the table after `k` rounds. All of them list the same
symbols, they grow with `k`, and beyond the nonterminals they never change.

How long they can grow is counted symbol by symbol. `holders a k` is the set of
nonterminals that hold `a` after `k` rounds: it grows with `k`, and once it and
the holders of the empty string stand still for one round, it stands still for
good. A set of at most `n` nonterminals grows at most `n` times. So the empty
string comes to rest within `n` rounds, and from then on every letter within
another `n`: `same_tableAfter_of_le`.
-/
namespace Lookahead.Grammar

variable {g : Grammar} {s a : Symbol} {j k : ℕ}

/-- The table after `k` rounds. -/
def tableAfter (g : Grammar) (k : ℕ) : FirstTable := g.nextTable^[k] g.initialTable

@[simp] theorem tableAfter_zero (g : Grammar) : g.tableAfter 0 = g.initialTable := rfl

theorem tableAfter_succ (g : Grammar) (k : ℕ) :
    g.tableAfter (k + 1) = g.nextTable (g.tableAfter k) :=
  Function.iterate_succ_apply' ..

theorem tableAfter_mono (g : Grammar) : Monotone g.tableAfter := by
  apply monotone_nat_of_le_succ
  intro k
  rw [tableAfter_succ]
  exact g.le_nextTable _

/-- Every table lists the same symbols. -/
theorem isSome_tableAfter : ((g.tableAfter k).find? s).isSome ↔ g.Listed s := by
  induction k with
  | zero => exact isSome_initialTable
  | succ k ih =>
      rw [tableAfter_succ, isSome_nextTable, ih]
      exact or_iff_left_of_imp fun hn => .inr (.inr hn)

theorem mem_setOf_tableAfter_succ :
    a ∈ (g.tableAfter (k + 1)).setOf s ↔
      a ∈ (g.tableAfter k).setOf s ∨
        ∃ p, g.Rewrites s p ∧ a ∈ (g.tableAfter k).firstOf p.rhs := by
  rw [tableAfter_succ, mem_setOf_nextTable]

/-- Only the sets of nonterminals change. -/
theorem find?_tableAfter_of_not_nonterminal (h : ¬ g.Nonterminal s) :
    (g.tableAfter k).find? s = g.initialTable.find? s := by
  induction k with
  | zero => rfl
  | succ k ih =>
      rw [tableAfter_succ, ← ih, nextTable_eq_foldl, FirstTable.find?_foldl_extend_of_ne]
      intro e he hes
      obtain ⟨n, hn, rfl⟩ := List.mem_map.mp he
      exact h ⟨n, hn, hes⟩

/-- A symbol that no production rewrites holds at most itself. -/
theorem mem_setOf_tableAfter_of_not_rewrites (h : ∀ p, ¬ g.Rewrites s p) :
    a ∈ (g.tableAfter k).setOf s ↔ a.id = s.id ∧ (s.id = 0 ∨ g.Letter s) := by
  induction k with
  | zero => exact mem_setOf_initialTable
  | succ k ih =>
      rw [mem_setOf_tableAfter_succ, ih]
      exact or_iff_left fun hp => h hp.choose hp.choose_spec.1

theorem mem_setOf_tableAfter_of_not_nonterminal (h : ¬ g.Nonterminal s) :
    a ∈ (g.tableAfter k).setOf s ↔ a.id = s.id ∧ (s.id = 0 ∨ g.Letter s) :=
  mem_setOf_tableAfter_of_not_rewrites fun _ hp => h hp.1

/-- The sets hold letters and the empty string, nothing else. -/
theorem letter_of_mem_setOf_tableAfter (h : a ∈ (g.tableAfter k).setOf s) :
    a.id = 0 ∨ g.Letter a := by
  induction k generalizing s with
  | zero =>
      obtain ⟨ha, hs⟩ := mem_setOf_initialTable.mp h
      rwa [ha, letter_congr ha]
  | succ k ih =>
      rcases mem_setOf_tableAfter_succ.mp h with h | ⟨p, _, h⟩
      · exact ih h
      · rcases FirstTable.eq_or_exists_of_mem_firstOf h with h0 | ⟨_, _, h⟩
        · exact .inl h0
        · exact ih h

theorem listed_of_mem_setOf_tableAfter (h : a ∈ (g.tableAfter k).setOf s) :
    g.Listed s ∧ g.Listed a := by
  refine ⟨isSome_tableAfter.mp (FirstTable.isSome_of_mem_setOf h), ?_⟩
  rcases letter_of_mem_setOf_tableAfter h with h0 | hl
  · exact .inl h0
  · exact .inr (.inl hl)

theorem same_tableAfter_iff :
    (g.tableAfter j).same (g.tableAfter k) = true ↔
      ∀ s a : Symbol, a ∈ (g.tableAfter j).setOf s ↔ a ∈ (g.tableAfter k).setOf s := by
  rw [FirstTable.same_iff_setOf]
  refine forall_congr' fun s => ?_
  rw [isSome_tableAfter, isSome_tableAfter]
  exact and_iff_right Iff.rfl

theorem tableAfter_le_tableAfter_iff :
    g.tableAfter j ≤ g.tableAfter k ↔
      ∀ s : Symbol, (g.tableAfter j).setOf s ⊆ (g.tableAfter k).setOf s := by
  rw [FirstTable.le_iff]
  refine forall_congr' fun s => ?_
  rw [isSome_tableAfter, isSome_tableAfter]
  exact and_iff_right fun hs => hs

section Holders

/-- The identities of the nonterminals that hold `a` after `k` rounds. -/
def holders (g : Grammar) (a : Symbol) (k : ℕ) : Finset ℤ :=
  (g.registry.nonterminals.map (·.id)).toFinset.filter
    fun i => a ∈ (g.tableAfter k).setOf ⟨i, .nonterminal⟩

theorem mem_holders :
    s.id ∈ g.holders a k ↔ g.Nonterminal s ∧ a ∈ (g.tableAfter k).setOf s := by
  have hs : (g.tableAfter k).setOf ⟨s.id, .nonterminal⟩ = (g.tableAfter k).setOf s :=
    FirstTable.setOf_congr _ rfl
  simp only [holders, Finset.mem_filter, List.mem_toFinset, List.mem_map, hs, Nonterminal]

theorem holders_ext {b : Symbol}
    (h : ∀ s : Symbol, a ∈ (g.tableAfter j).setOf s ↔ b ∈ (g.tableAfter k).setOf s) :
    g.holders a j = g.holders b k := by
  unfold holders
  apply Finset.filter_congr
  intro i _
  exact h ⟨i, .nonterminal⟩

theorem card_holders_le (g : Grammar) (a : Symbol) (k : ℕ) :
    (g.holders a k).card ≤ g.registry.nonterminals.length := by
  calc (g.holders a k).card
      ≤ (g.registry.nonterminals.map (·.id)).toFinset.card := Finset.card_filter_le ..
    _ ≤ (g.registry.nonterminals.map (·.id)).length := List.toFinset_card_le _
    _ = g.registry.nonterminals.length := List.length_map ..

theorem holders_mono (g : Grammar) (a : Symbol) : Monotone (g.holders a) := by
  intro j k hjk i hi
  have hs := mem_holders (s := ⟨i, .nonterminal⟩).mp hi
  exact mem_holders (s := ⟨i, .nonterminal⟩).mpr
    ⟨hs.1, FirstTable.setOf_subset_of_le (g.tableAfter_mono hjk) _ _ hs.2⟩

/-- The holders tell which symbols hold `a`, as the others never change. -/
theorem holders_eq_iff :
    g.holders a j = g.holders a k ↔
      ∀ s : Symbol, a ∈ (g.tableAfter j).setOf s ↔ a ∈ (g.tableAfter k).setOf s := by
  constructor
  · intro h s
    by_cases hn : g.Nonterminal s
    · have hs : s.id ∈ g.holders a j ↔ s.id ∈ g.holders a k := by rw [h]
      simpa only [mem_holders, hn, true_and] using hs
    · rw [mem_setOf_tableAfter_of_not_nonterminal hn, mem_setOf_tableAfter_of_not_nonterminal hn]
  · exact holders_ext

/-- What one round leaves alone, and the empty string with it, the next one does too. -/
theorem holders_still (h0 : g.holders .epsilon k = g.holders .epsilon (k + 1))
    (ha : g.holders a k = g.holders a (k + 1)) :
    g.holders a (k + 1) = g.holders a (k + 2) := by
  rw [holders_eq_iff] at h0 ha ⊢
  rw [tableAfter_succ g (k + 1), tableAfter_succ g k] at *
  exact mem_setOf_nextTable_congr h0 ha

/-- Holders that stand still for good once they do so from round `j` on are
complete as many rounds later as there are nonterminals. -/
theorem holders_eq_of_le
    (hstill : ∀ i, j ≤ i → g.holders a i = g.holders a (i + 1) →
      g.holders a (i + 1) = g.holders a (i + 2))
    (hk : j + g.registry.nonterminals.length ≤ k) :
    g.holders a k = g.holders a (j + g.registry.nonterminals.length) := by
  have hmono : Monotone fun i => (g.holders a (j + i)).card := by
    intro i l hil
    exact Finset.card_le_card (g.holders_mono a (by omega))
  have heq (i l : ℕ) (hil : i ≤ l) (hc : (g.holders a i).card = (g.holders a l).card) :
      g.holders a i = g.holders a l :=
    Finset.eq_of_subset_of_card_le (g.holders_mono a hil) hc.ge
  have hstep (i : ℕ) (hi : (g.holders a (j + i)).card = (g.holders a (j + (i + 1))).card) :
      (g.holders a (j + (i + 1))).card = (g.holders a (j + (i + 2))).card := by
    have he := heq _ _ (by omega) hi
    exact congrArg Finset.card (hstill (j + i) (by omega) he)
  have hcard := Nat.stabilises_of_monotone hmono (fun i => g.card_holders_le a (j + i)) hstep
    (show g.registry.nonterminals.length ≤ k - j by omega)
  have hjk : j + (k - j) = k := by omega
  rw [hjk] at hcard
  exact (heq _ _ hk hcard.symm).symm

/-- The empty string comes to rest first. -/
theorem holders_epsilon_eq (hk : g.registry.nonterminals.length ≤ k) :
    g.holders .epsilon k = g.holders .epsilon g.registry.nonterminals.length := by
  have h := holders_eq_of_le (g := g) (a := .epsilon) (j := 0) (k := k)
    (fun i _ hi => holders_still hi hi) (by omega)
  rwa [Nat.zero_add] at h

theorem holders_eq (hk : 2 * g.registry.nonterminals.length ≤ k) :
    g.holders a k = g.holders a (2 * g.registry.nonterminals.length) := by
  rw [Nat.two_mul] at hk ⊢
  apply holders_eq_of_le _ hk
  intro i hi
  apply holders_still
  rw [holders_epsilon_eq hi, holders_epsilon_eq (Nat.le_succ_of_le hi)]

end Holders

/-- The number of symbols that a set can hold: the empty string, the terminals,
and the end marker when it is in use. -/
def alphabetSize (g : Grammar) : ℕ :=
  1 + g.registry.terminals.length + if g.mentionsEndMarker then 1 else 0

/-- Two waves of rounds, one for the empty string and one for the letters; only
the first one when there are no letters. -/
def restBound (g : Grammar) : ℕ := g.registry.nonterminals.length * min 2 g.alphabetSize

theorem not_letter_of_alphabetSize (h : g.alphabetSize < 2) : ¬ g.Letter a := by
  unfold alphabetSize at h
  intro hl
  rcases hl with ⟨b, hb, _⟩ | ⟨hm, _⟩
  · have hpos := List.length_pos_of_mem hb
    omega
  · rw [if_pos hm] at h
    omega

theorem same_tableAfter_of_le (hk : g.restBound ≤ k) :
    (g.tableAfter k).same (g.tableAfter g.restBound) = true := by
  rw [same_tableAfter_iff]
  unfold restBound at hk ⊢
  intro s a
  revert s
  rw [← holders_eq_iff]
  rcases Nat.lt_or_ge g.alphabetSize 2 with hu | hu
  · have h1 : g.alphabetSize = 1 := by
      unfold alphabetSize at hu ⊢
      omega
    rw [h1, show min 2 1 = 1 from rfl, Nat.mul_one] at hk ⊢
    by_cases ha : a.id = 0
    · have he (l : ℕ) : g.holders a l = g.holders .epsilon l :=
        holders_ext fun _ => SymbolSet.mem_congr ha
      rw [he, he]
      exact holders_epsilon_eq hk
    · -- Without letters nobody holds anything but the empty string.
      have he (l : ℕ) : g.holders a l = ∅ := by
        ext i
        rw [mem_holders (s := ⟨i, .nonterminal⟩)]
        refine iff_of_false (fun h => ?_) (Finset.notMem_empty i)
        rcases letter_of_mem_setOf_tableAfter h.2 with h0 | hl
        · exact ha h0
        · exact not_letter_of_alphabetSize hu hl
      rw [he, he]
  · rw [Nat.min_eq_left hu, Nat.mul_comm] at hk ⊢
    exact holders_eq hk

end Lookahead.Grammar
