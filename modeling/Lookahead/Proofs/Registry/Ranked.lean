import Lookahead.Proofs.Ascending
import Lookahead.Proofs.Registry.Growth
import Mathlib.Data.String.Basic

/-!
# Identities by rank

A registry of two sets of names numbers the nonterminals first and the terminals
after them, each in the order of code points. So the identity of a nonterminal is the
rank of its name among the nonterminals, and that of a terminal is its rank among the
terminals, moved up by the number of nonterminals. The names come as two lists, of
which only the members matter (`ofNames_congr`).
-/
namespace Lookahead.Registry

variable {r : Registry} {kind : Kind} {names : List String} {before after : List (String × Kind)}

/-- The symbols issued under one kind, in that order. -/
def listed (r : Registry) : Kind → List Symbol
  | .terminal => r.terminals
  | .nonterminal => r.nonterminals

/-- The names of one kind are these, and they hold the identities that follow the first
`offset` ones, each name the next. -/
structure Numbers (r : Registry) (kind : Kind) (offset : ℕ) (names : List String) : Prop where
  issue : ∀ (i : ℕ) (name : String), names[i]? = some name →
    (r.issue name kind).value = (⟨Symbol.firstId + (offset + i : ℕ), kind⟩, r)
  listed : r.listed kind = names.mapIdx fun i _ => ⟨Symbol.firstId + (offset + i : ℕ), kind⟩
  names : (r.listed kind).map r.name? = names.map some

theorem Records.listed_eq {entries : List (String × Kind)} (h : r.Records entries) (kind : Kind) :
    r.listed kind = (symbolsOf entries).filter (·.kind == kind) := by
  cases kind with
  | terminal => exact h.terminals_eq
  | nonterminal => exact h.nonterminals_eq

section Block

theorem getElem?_block (before after : List (String × Kind)) {i : ℕ} {name : String}
    (hi : names[i]? = some name) :
    (before ++ names.map (·, kind) ++ after)[before.length + i]? = some (name, kind) := by
  have hlt : i < (names.map (·, kind)).length := by
    rw [List.length_map]
    exact (List.getElem?_eq_some_iff.mp hi).1
  rw [List.append_assoc, List.getElem?_append_right (Nat.le_add_right _ _),
    Nat.add_sub_cancel_left, List.getElem?_append_left hlt, List.getElem?_map, hi]
  rfl

/-- Entries of the other kind have no symbol of this one. -/
theorem filter_mapIdx_eq_nil (f : ℕ → ℤ) (h : ∀ e ∈ before, e.2 ≠ kind) :
    (before.mapIdx fun i e => Symbol.mk (f i) e.2).filter (·.kind == kind) = [] := by
  rw [List.filter_eq_nil_iff]
  intro s hs
  obtain ⟨i, hi, rfl⟩ := List.mem_mapIdx.mp hs
  simpa using h before[i] (List.getElem_mem hi)

theorem filter_mapIdx_map (f : ℕ → ℤ) (names : List String) (kind : Kind) :
    ((names.map (·, kind)).mapIdx fun i e => Symbol.mk (f i) e.2).filter (·.kind == kind) =
      names.mapIdx fun i _ => ⟨f i, kind⟩ := by
  have hmap : ((names.map (·, kind)).mapIdx fun i e => Symbol.mk (f i) e.2) =
      names.mapIdx fun i _ => ⟨f i, kind⟩ := by
    apply List.ext_getElem
    · simp
    · simp
  rw [hmap, List.filter_eq_self]
  intro s hs
  obtain ⟨i, hi, rfl⟩ := List.mem_mapIdx.mp hs
  exact beq_self_eq_true kind

/-- A block of names of one kind, among entries of the other, makes up the symbols of
that kind. -/
theorem filter_symbolsOf_block (hbefore : ∀ e ∈ before, e.2 ≠ kind)
    (hafter : ∀ e ∈ after, e.2 ≠ kind) :
    (symbolsOf (before ++ names.map (·, kind) ++ after)).filter (·.kind == kind) =
      names.mapIdx fun i _ => ⟨Symbol.firstId + (before.length + i : ℕ), kind⟩ := by
  unfold symbolsOf
  rw [List.mapIdx_append, List.mapIdx_append, List.filter_append, List.filter_append,
    filter_mapIdx_eq_nil _ hbefore, filter_mapIdx_eq_nil _ hafter, filter_mapIdx_map,
    List.nil_append, List.append_nil]
  simp only [Nat.add_comm before.length]

theorem Records.numbers (before after : List (String × Kind))
    (h : r.Records (before ++ names.map (·, kind) ++ after))
    (hbefore : ∀ e ∈ before, e.2 ≠ kind) (hafter : ∀ e ∈ after, e.2 ≠ kind) :
    r.Numbers kind before.length names := by
  have hlisted : r.listed kind =
      names.mapIdx fun i _ => ⟨Symbol.firstId + (before.length + i : ℕ), kind⟩ := by
    rw [h.listed_eq, filter_symbolsOf_block hbefore hafter]
  refine ⟨fun i name hi => h.issue_known (getElem?_block before after hi), hlisted, ?_⟩
  rw [hlisted]
  apply List.ext_getElem
  · simp
  · intro i hi _
    rw [List.length_map, List.length_mapIdx] at hi
    rw [List.getElem_map, List.getElem_mapIdx, List.getElem_map]
    exact h.name?_eq_some
      (entered_mk.mpr (getElem?_block before after (List.getElem?_eq_getElem hi)))

end Block

section Names

theorem eraseDups_eq_self {names : List (String × Kind)} (h : names.Nodup) :
    names.eraseDups = names := by
  induction names using List.reverseRecOn with
  | nil => rfl
  | append_singleton names e ih =>
      obtain ⟨hnames, _, hdisjoint⟩ := List.nodup_append'.mp h
      have he : e ∉ names := fun he => hdisjoint he List.mem_cons_self
      rw [eraseDups_concat, ih hnames, if_neg he]

theorem nodup_map_distinct (names : List String) (kind : Kind) :
    ((Ascending.distinct names).map (·, kind)).Nodup := by
  apply List.Nodup.map
  · intro a b hab
    exact congrArg Prod.fst hab
  · exact (Ascending.pairwise_distinct names).imp ne_of_lt

theorem nodup_distinct_append (nonterminals terminals : List String) :
    ((Ascending.distinct nonterminals).map (·, Kind.nonterminal) ++
      (Ascending.distinct terminals).map (·, Kind.terminal)).Nodup := by
  refine List.nodup_append'.mpr ⟨nodup_map_distinct _ _, nodup_map_distinct _ _, ?_⟩
  intro e hn ht
  obtain ⟨_, _, rfl⟩ := List.mem_map.mp hn
  obtain ⟨_, _, he⟩ := List.mem_map.mp ht
  cases he

/-- A registry of two sets of names has one entry for a name of each kind. -/
theorem records_ofNames (nonterminals terminals : List String) :
    (ofNames nonterminals terminals).value.Records
      ((Ascending.distinct nonterminals).map (·, Kind.nonterminal) ++
        (Ascending.distinct terminals).map (·, Kind.terminal)) := by
  have h := records_ofList ((Ascending.distinct nonterminals).map (·, Kind.nonterminal) ++
    (Ascending.distinct terminals).map (·, Kind.terminal))
  rw [eraseDups_eq_self (nodup_distinct_append nonterminals terminals)] at h
  exact h

/-- Neither the order of the names nor how often one comes matters. -/
theorem ofNames_congr {nonterminals nonterminals' terminals terminals' : List String}
    (hn : ∀ name, name ∈ nonterminals' ↔ name ∈ nonterminals)
    (ht : ∀ name, name ∈ terminals' ↔ name ∈ terminals) :
    ofNames nonterminals' terminals' = ofNames nonterminals terminals := by
  unfold ofNames
  rw [Ascending.distinct_congr hn, Ascending.distinct_congr ht]

end Names

/-- The names of each kind are numbered by their rank in the order of code points, the
terminals after the nonterminals, and a name in both lists gets two identities. Lists
with the same members give the same registry. -/
theorem ofNames_numbers (nonterminals terminals : List String) :
    (ofNames nonterminals terminals).value.size =
        nonterminals.toFinset.card + terminals.toFinset.card ∧
      (ofNames nonterminals terminals).value.Numbers .nonterminal 0 nonterminals.toFinset.sort ∧
      (ofNames nonterminals terminals).value.Numbers .terminal nonterminals.toFinset.card
        terminals.toFinset.sort ∧
      ∀ nonterminals' terminals' : List String,
        (∀ name, name ∈ nonterminals' ↔ name ∈ nonterminals) →
        (∀ name, name ∈ terminals' ↔ name ∈ terminals) →
        ofNames nonterminals' terminals' = ofNames nonterminals terminals := by
  have h := records_ofNames nonterminals terminals
  rw [Ascending.distinct_eq_sort, Ascending.distinct_eq_sort] at h
  refine ⟨?_, ?_, ?_, fun _ _ => ofNames_congr⟩
  · rw [h.size_eq]
    simp
  · apply Records.numbers [] _ h
    · simp
    · simp
  · have hlast : (ofNames nonterminals terminals).value.Numbers .terminal
        (nonterminals.toFinset.sort.map (·, Kind.nonterminal)).length terminals.toFinset.sort := by
      apply Records.numbers _ []
      · rw [List.append_nil]
        exact h
      · simp
      · simp
    rw [List.length_map, Finset.length_sort] at hlast
    exact hlast

/-- Of two nonterminals and two terminals, `b` is the second of either kind, and the
empty name is the first terminal. -/
theorem ofNames_numbers_overlap :
    (ofNames ["b", "a", "b"] ["b", ""]).value.size = 4 ∧
      ((ofNames ["b", "a", "b"] ["b", ""]).value.issue "b" .nonterminal).value.1 =
        ⟨2, .nonterminal⟩ ∧
      ((ofNames ["b", "a", "b"] ["b", ""]).value.issue "b" .terminal).value.1 =
        ⟨4, .terminal⟩ ∧
      (ofNames ["b", "a", "b"] ["b", ""]).value.terminals.map
          (ofNames ["b", "a", "b"] ["b", ""]).value.name? = [some "", some "b"] ∧
      ofNames ["a", "b"] ["", "b"] = ofNames ["b", "a", "b"] ["b", ""] := by
  have hn : (["b", "a", "b"] : List String).toFinset.sort = ["a", "b"] := by
    rw [← Ascending.distinct_eq_sort]
    decide
  have ht : (["b", ""] : List String).toFinset.sort = ["", "b"] := by
    rw [← Ascending.distinct_eq_sort]
    decide
  obtain ⟨hsize, hnonterminal, hterminal, hsame⟩ := ofNames_numbers ["b", "a", "b"] ["b", ""]
  rw [hn] at hnonterminal
  rw [ht] at hterminal
  refine ⟨hsize, ?_, ?_, hterminal.names, hsame _ _ ?_ ?_⟩
  · rw [hnonterminal.issue 1 "b" rfl]
    rfl
  · rw [hterminal.issue 1 "b" rfl]
    rfl
  · simp [or_comm]
  · simp [or_comm]

end Lookahead.Registry
