import Lookahead.First.Table
import Lookahead.Proofs.Ascending

/-!
# Reading tables of first symbols

A table is read symbol by symbol: `setOf` is the set of a symbol, empty for one
that the table does not list, and the set of a string depends on nothing else.
`mem_firstOf_cons` is the only place where the walk along a string is opened:
the first symbol contributes its members other than the empty string, and hands
over to the rest exactly when it can vanish. Joining strings and growing tables
follow from it.

Tables are ordered by inclusion, key by key. Two tables are the same when they
list the same symbols with the same members.
-/
namespace Lookahead

namespace SymbolSet

theorem mem_congr {s t : Symbol} {X : SymbolSet} (h : s.id = t.id) : s ∈ X ↔ t ∈ X := by
  rw [mem_iff_ids, mem_iff_ids, h]

theorem pairwise_ids (X : SymbolSet) : X.ids.Pairwise (· < ·) :=
  List.pairwise_map.mpr X.ascending

/-- The list of identities is determined by the members. -/
theorem ids_eq_iff {X Y : SymbolSet} : X.ids = Y.ids ↔ ∀ s : Symbol, s ∈ X ↔ s ∈ Y := by
  constructor
  · intro h s
    rw [mem_iff_ids, mem_iff_ids, h]
  · intro h
    apply X.pairwise_ids.eq_of_mem_iff Y.pairwise_ids
    intro i
    have hi := h ⟨i, .terminal⟩
    rwa [mem_iff_ids, mem_iff_ids] at hi

end SymbolSet

namespace FirstTable

variable {t u v : FirstTable} {s k a : Symbol}

/-- The set of `s`, empty when the table does not list it. -/
def setOf (t : FirstTable) (s : Symbol) : SymbolSet := (t.find? s).getD ∅

theorem find?_congr (t : FirstTable) (h : s.id = k.id) : t.find? s = t.find? k := by
  simp only [find?, h]

theorem setOf_congr (t : FirstTable) (h : s.id = k.id) : t.setOf s = t.setOf k := by
  unfold setOf
  rw [t.find?_congr h]

theorem setOf_of_find? {X : SymbolSet} (h : t.find? s = some X) : t.setOf s = X := by
  unfold setOf
  rw [h, Option.getD_some]

theorem find?_eq_some_setOf (h : (t.find? s).isSome) : t.find? s = some (t.setOf s) := by
  cases hs : t.find? s with
  | none => simp [hs] at h
  | some X => rw [setOf_of_find? hs]

/-- A symbol with a member is listed. -/
theorem isSome_of_mem_setOf (h : a ∈ t.setOf s) : (t.find? s).isSome := by
  cases hs : t.find? s with
  | some X => rfl
  | none => simp [setOf, hs] at h

section Walk

@[simp] theorem mem_firstOf_nil : a ∈ t.firstOf [] ↔ a.id = 0 := by
  simp [firstOf]

theorem mem_firstOf_cons {α : List Symbol} :
    a ∈ t.firstOf (s :: α) ↔
      (a ∈ t.setOf s ∧ a.id ≠ 0) ∨ (.epsilon ∈ t.setOf s ∧ a ∈ t.firstOf α) := by
  cases hs : t.find? s with
  | none => simp [firstOf, setOf, hs]
  | some X =>
      rw [setOf_of_find? hs]
      simp only [firstOf, hs]
      split
      next he => simp [he]
      next he =>
        -- A member named by the identity zero would be the empty string.
        have hne : a ∈ X → a.id ≠ 0 := fun ha h0 =>
          he ((SymbolSet.mem_congr (t := .epsilon) h0).mp ha)
        simpa [he] using hne

@[simp] theorem mem_firstOf_singleton : a ∈ t.firstOf [s] ↔ a ∈ t.setOf s := by
  rw [mem_firstOf_cons, mem_firstOf_nil]
  by_cases h : a.id = 0
  · rw [SymbolSet.mem_congr (t := .epsilon) h]
    simp [h]
  · simp [h]

/-- A string can vanish exactly when each of its symbols can. -/
theorem epsilon_mem_firstOf {α : List Symbol} :
    .epsilon ∈ t.firstOf α ↔ ∀ s ∈ α, .epsilon ∈ t.setOf s := by
  induction α with
  | nil => simp
  | cons s α ih => simp [mem_firstOf_cons, ih]

/-- The second string counts exactly when the first one can vanish. -/
theorem mem_firstOf_append {α β : List Symbol} :
    a ∈ t.firstOf (α ++ β) ↔
      (a ∈ t.firstOf α ∧ a.id ≠ 0) ∨ (.epsilon ∈ t.firstOf α ∧ a ∈ t.firstOf β) := by
  induction α with
  | nil => simp
  | cons s α ih =>
      simp only [List.cons_append, mem_firstOf_cons, ih, Symbol.epsilon_id]
      tauto

theorem eq_or_exists_of_mem_firstOf {α : List Symbol} (h : a ∈ t.firstOf α) :
    a.id = 0 ∨ ∃ s ∈ α, a ∈ t.setOf s := by
  induction α with
  | nil => exact .inl (mem_firstOf_nil.mp h)
  | cons s α ih =>
      rcases mem_firstOf_cons.mp h with ⟨ha, _⟩ | ⟨_, ha⟩
      · exact .inr ⟨s, List.mem_cons_self, ha⟩
      · rcases ih ha with h0 | ⟨k, hk, hak⟩
        · exact .inl h0
        · exact .inr ⟨k, List.mem_cons_of_mem s hk, hak⟩

/-- Whether `a` is first depends on which symbols hold `a` and which can vanish. -/
theorem mem_firstOf_congr (h0 : ∀ s : Symbol, .epsilon ∈ t.setOf s ↔ .epsilon ∈ u.setOf s)
    (ha : ∀ s : Symbol, a ∈ t.setOf s ↔ a ∈ u.setOf s) (α : List Symbol) :
    a ∈ t.firstOf α ↔ a ∈ u.firstOf α := by
  induction α with
  | nil => simp
  | cons s α ih => rw [mem_firstOf_cons, mem_firstOf_cons, h0 s, ha s, ih]

/-- Only the sets of the symbols in the string matter. -/
theorem firstOf_subset {α : List Symbol} (h : ∀ s ∈ α, t.setOf s ⊆ u.setOf s) :
    t.firstOf α ⊆ u.firstOf α := by
  intro a ha
  induction α with
  | nil => simpa using ha
  | cons s α ih =>
      have hs : t.setOf s ⊆ u.setOf s := h s List.mem_cons_self
      rw [mem_firstOf_cons] at ha ⊢
      rcases ha with ⟨ha, h0⟩ | ⟨he, ha⟩
      · exact .inl ⟨hs a ha, h0⟩
      · exact .inr ⟨hs _ he, ih (fun k hk => h k (List.mem_cons_of_mem s hk)) ha⟩

theorem firstOf_mono (h : ∀ s : Symbol, t.setOf s ⊆ u.setOf s) (α : List Symbol) :
    t.firstOf α ⊆ u.firstOf α :=
  firstOf_subset fun s _ => h s

/-- Only the identities in a string matter. -/
theorem firstOf_congr (t : FirstTable) {α β : List Symbol}
    (h : α.map (·.id) = β.map (·.id)) : t.firstOf α = t.firstOf β := by
  induction α generalizing β with
  | nil =>
      rw [List.map_nil, eq_comm, List.map_eq_nil_iff] at h
      rw [h]
  | cons s α ih =>
      cases β with
      | nil => simp at h
      | cons k β =>
          obtain ⟨hs, hα⟩ := List.cons.inj h
          simp only [firstOf]
          rw [t.find?_congr hs, ih hα]

end Walk

section Order

/-- Every listed symbol stays listed and loses no member. -/
instance : LE FirstTable where
  le t u := ∀ s X, t.find? s = some X → ∃ Y, u.find? s = some Y ∧ X ⊆ Y

theorem le_iff :
    t ≤ u ↔ ∀ s : Symbol, ((t.find? s).isSome → (u.find? s).isSome) ∧ t.setOf s ⊆ u.setOf s := by
  constructor
  · intro h s
    cases hs : t.find? s with
    | none => exact ⟨by simp, fun a ha => by simp [setOf, hs] at ha⟩
    | some X =>
        obtain ⟨Y, hY, hXY⟩ := h s X hs
        rw [setOf_of_find? hs, setOf_of_find? hY, hY]
        exact ⟨fun _ => rfl, hXY⟩
  · intro h s X hs
    have hsome : (u.find? s).isSome := (h s).1 (by rw [hs, Option.isSome_some])
    have hsub := (h s).2
    rw [setOf_of_find? hs] at hsub
    exact ⟨u.setOf s, find?_eq_some_setOf hsome, hsub⟩

theorem setOf_subset_of_le (h : t ≤ u) (s : Symbol) : t.setOf s ⊆ u.setOf s :=
  (le_iff.mp h s).2

instance : Preorder FirstTable where
  le_refl t := fun _ X hX => ⟨X, hX, fun _ ha => ha⟩
  le_trans t u v htu huv := fun s X hX => by
    obtain ⟨Y, hY, hXY⟩ := htu s X hX
    obtain ⟨Z, hZ, hYZ⟩ := huv s Y hY
    exact ⟨Z, hZ, fun a ha => hYZ a (hXY a ha)⟩

end Order

section Same

theorem find?_eq_some_iff {X : SymbolSet} :
    t.find? s = some X ↔ ∃ e ∈ t.entries, e.1.id = s.id ∧ e.2 = X := by
  simp only [find?, Option.map_eq_some_iff,
    Ascending.find?_eq_some_iff (fun e : Symbol × SymbolSet => e.1.id) t.ascending, and_assoc]

theorem mem_ids_iff {l : List Int} :
    (s.id, l) ∈ t.ids ↔ (t.find? s).map SymbolSet.ids = some l := by
  simp only [ids, List.mem_map, Prod.mk.injEq, Option.map_eq_some_iff, find?_eq_some_iff]
  constructor
  · intro h
    obtain ⟨e, he, hes, hel⟩ := h
    exact ⟨e.2, ⟨e, he, hes, rfl⟩, hel⟩
  · intro h
    obtain ⟨X, ⟨e, he, hes, rfl⟩, hel⟩ := h
    exact ⟨e, he, hes, hel⟩

theorem pairwise_ids (t : FirstTable) : t.ids.Pairwise (·.1 < ·.1) :=
  List.pairwise_map.mpr t.ascending

/-- Tables are the same when every look-up gives the same members. -/
theorem same_iff_find? :
    t.same u = true ↔
      ∀ s : Symbol, (t.find? s).map SymbolSet.ids = (u.find? s).map SymbolSet.ids := by
  rw [same_iff]
  constructor
  · intro h s
    ext l
    rw [← mem_ids_iff, ← mem_ids_iff, h]
  · intro h
    apply Ascending.eq_of_mem_iff Prod.fst t.pairwise_ids u.pairwise_ids
    intro e
    have hi := h ⟨e.1, .terminal⟩
    exact (mem_ids_iff (s := ⟨e.1, .terminal⟩)).trans (by rw [hi, ← mem_ids_iff])

/-- Tables are the same when they list the same symbols with the same members. -/
theorem same_iff_setOf :
    t.same u = true ↔
      ∀ s : Symbol, ((t.find? s).isSome ↔ (u.find? s).isSome) ∧
        ∀ a : Symbol, a ∈ t.setOf s ↔ a ∈ u.setOf s := by
  rw [same_iff_find?]
  refine forall_congr' fun s => ?_
  cases ht : t.find? s with
  | none =>
      cases hu : u.find? s with
      | none => simp [setOf, ht, hu]
      | some Y => simp
  | some X =>
      cases hu : u.find? s with
      | none => simp
      | some Y => simp [setOf_of_find? ht, setOf_of_find? hu, SymbolSet.ids_eq_iff]

theorem same_iff_le : t.same u = true ↔ t ≤ u ∧ u ≤ t := by
  rw [same_iff_setOf, le_iff, le_iff, ← forall_and]
  refine forall_congr' fun s => ?_
  constructor
  · intro h
    exact ⟨⟨h.1.mp, fun a => (h.2 a).mp⟩, ⟨h.1.mpr, fun a => (h.2 a).mpr⟩⟩
  · intro h
    exact ⟨⟨h.1.1, h.2.1⟩, fun a => ⟨h.1.2 a, h.2.2 a⟩⟩

end Same

end FirstTable

end Lookahead
