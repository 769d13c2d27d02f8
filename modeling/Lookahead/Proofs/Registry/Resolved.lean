import Lookahead.Proofs.Registry.Entries

/-!
# Names and what they stand for

A symbol has one name, but a name may have been issued twice, as a nonterminal and
as a terminal, and it may be the name of the empty string. Looking a name up gives
the empty string first, then the nonterminal, then the terminal
(`Records.resolve_eq_ok_iff`). So going from a name to its symbol and back to the
name always ends where it started, and going from a symbol to its name and back
does so unless something else comes first.
-/
namespace Lookahead.Registry

variable {r : Registry} {entries : List (String × Kind)} {s : Symbol} {name : String}

/-- Names and symbols lead back to one another as far as no symbol hides another:
the empty string hides whatever was issued under its name, and a nonterminal hides
the terminal of its name. -/
structure Resolves (r : Registry) (names : List (String × Kind)) : Prop where
  name? : ∀ name s, r.resolve name = .ok s → r.name? s = some name
  endMarker : ∀ name s, r.resolve name = .ok s → s.id ≠ Symbol.endMarker.id
  unresolved : ∀ name f, r.resolve name = .error f ↔
    f = ⟨name⟩ ∧ name ≠ epsilonName ∧ ∀ kind, (name, kind) ∉ names
  found : ∀ s ∈ r.nonterminals ++ r.terminals, ∀ name, r.name? s = some name →
    (r.resolve name = .ok s ↔
      name ≠ epsilonName ∧ (s.kind = .nonterminal ∨ (name, .nonterminal) ∉ names))
  epsilon : r.resolve epsilonName = .ok .epsilon
  hidden : ∀ t ∈ r.terminals, ∀ name, r.name? t = some name → name ≠ epsilonName →
    (name, .nonterminal) ∈ names →
    ∃ n ∈ r.nonterminals, r.name? n = some name ∧ r.resolve name = .ok n

theorem resolve_epsilonName (r : Registry) : r.resolve epsilonName = .ok .epsilon := rfl

/-- Any other name is looked up among the nonterminals and then among the terminals. -/
theorem resolve_of_ne (h : name ≠ epsilonName) :
    r.resolve name =
      match (r.index .nonterminal)[name]?.or (r.index .terminal)[name]? with
      | some s => .ok s
      | none => .error ⟨name⟩ := by
  rw [resolve, if_neg h, Option.orElse_eq_orElse, Option.orElse_eq_or]
  rfl

/-- The fault of a name carries the name. -/
theorem eq_of_resolve_error {f : UnresolvedName} (h : r.resolve name = .error f) : f = ⟨name⟩ := by
  by_cases hname : name = epsilonName
  · rw [hname, resolve_epsilonName] at h
    cases h
  · rw [resolve_of_ne hname] at h
    split at h
    next => cases h
    next =>
      cases h
      rfl

namespace Records

variable (h : r.Records entries)
include h

theorem lookup_eq_some_iff :
    (r.index .nonterminal)[name]?.or (r.index .terminal)[name]? = some s ↔
      Entered entries s name ∧ (s.kind = .nonterminal ∨ (name, .nonterminal) ∉ entries) := by
  rw [Option.or_eq_some_iff, h.index_eq_none, h.index, h.index]
  constructor
  · intro hs
    cases hs with
    | inl hn => exact ⟨hn.2, .inl hn.1⟩
    | inr ht => exact ⟨ht.2.2, .inr ht.1⟩
  · intro hs
    cases hk : s.kind with
    | nonterminal => exact .inl ⟨rfl, hs.1⟩
    | terminal => exact .inr ⟨by simpa [hk] using hs.2, rfl, hs.1⟩

theorem lookup_eq_none_iff :
    (r.index .nonterminal)[name]?.or (r.index .terminal)[name]? = none ↔
      ∀ kind, (name, kind) ∉ entries := by
  rw [Option.or_eq_none_iff, h.index_eq_none, h.index_eq_none]
  constructor
  · intro hno kind
    cases kind with
    | nonterminal => exact hno.1
    | terminal => exact hno.2
  · intro hno
    exact ⟨hno .nonterminal, hno .terminal⟩

/-- What a name stands for. -/
theorem resolve_eq_ok_iff (hname : name ≠ epsilonName) :
    r.resolve name = .ok s ↔
      Entered entries s name ∧ (s.kind = .nonterminal ∨ (name, .nonterminal) ∉ entries) := by
  rw [← h.lookup_eq_some_iff, resolve_of_ne hname]
  cases (r.index .nonterminal)[name]?.or (r.index .terminal)[name]? <;> simp

theorem resolve_eq_error_iff {f : UnresolvedName} :
    r.resolve name = .error f ↔
      f = ⟨name⟩ ∧ name ≠ epsilonName ∧ ∀ kind, (name, kind) ∉ entries := by
  by_cases hname : name = epsilonName
  · rw [hname, resolve_epsilonName]
    simp
  · rw [← h.lookup_eq_none_iff, resolve_of_ne hname]
    cases (r.index .nonterminal)[name]?.or (r.index .terminal)[name]? <;> simp [hname, eq_comm]

theorem id_nonneg_of_resolve (hs : r.resolve name = .ok s) : 0 ≤ s.id := by
  cases h.entered_of_resolve hs with
  | inl he => exact le_of_eq (congrArg Symbol.id he.2).symm
  | inr he => exact he.2.id_pos.le

theorem resolves : r.Resolves entries where
  name? _ _ := h.name?_of_resolve
  endMarker name s hs := by
    have h0 := h.id_nonneg_of_resolve hs
    rw [Symbol.endMarker_id]
    omega
  unresolved _ _ := h.resolve_eq_error_iff
  found s hs name hname := by
    obtain ⟨other, hs⟩ := h.mem_append_iff.mp hs
    have hentered : Entered entries s name := (h.name?_iff hs.id_pos).mp hname
    by_cases hε : name = epsilonName
    · have hne : Symbol.epsilon ≠ s := fun he => hs.id_pos.ne (congrArg Symbol.id he)
      rw [hε, resolve_epsilonName]
      simp [hne]
    · rw [h.resolve_eq_ok_iff hε]
      simp [hε, hentered]
  epsilon := r.resolve_epsilonName
  hidden t ht name _ hε hmem := by
    obtain ⟨n, hk, hn⟩ := exists_entered_iff_mem.mpr hmem
    refine ⟨n, h.mem_nonterminals_iff.mpr ⟨hk, name, hn⟩, h.name?_eq_some hn, ?_⟩
    exact (h.resolve_eq_ok_iff hε).mpr ⟨hn, .inl hk⟩

end Records

/-- It matters which names were issued under which kind, not when or how often. -/
theorem Resolves.congr {names names' : List (String × Kind)} (h : r.Resolves names)
    (hmem : ∀ e, e ∈ names ↔ e ∈ names') : r.Resolves names' where
  name? := h.name?
  endMarker := h.endMarker
  unresolved := by simpa only [hmem] using h.unresolved
  found := by simpa only [hmem] using h.found
  epsilon := h.epsilon
  hidden := by simpa only [hmem] using h.hidden

/-- Every registry resolves the names that it was given. -/
theorem ofList_resolves (names : List (String × Kind)) : (ofList names).value.Resolves names :=
  (records_ofList names).resolves.congr fun _ => List.mem_eraseDups

/-- The names of the reserved symbols, and one name under both kinds. -/
def reservedNames : List (String × Kind) :=
  [("x", .terminal), ("epsilon", .nonterminal), ("dollar", .terminal), ("x", .nonterminal)]

/-- The terminal `x` is hidden by the nonterminal, and the nonterminal `epsilon` by the
empty string. No other symbol hides `dollar`, and it is not the end marker. -/
theorem ofList_resolves_reserved :
    (ofList reservedNames).value.resolve "x" = .ok ⟨4, .nonterminal⟩ ∧
      (ofList reservedNames).value.resolve "x" ≠ .ok ⟨1, .terminal⟩ ∧
      (ofList reservedNames).value.resolve "epsilon" ≠ .ok ⟨2, .nonterminal⟩ ∧
      (ofList reservedNames).value.resolve "dollar" = .ok ⟨3, .terminal⟩ ∧
      (ofList reservedNames).value.resolve "y" = .error ⟨"y"⟩ := by
  have h := ofList_resolves reservedNames
  have hx : (ofList reservedNames).value.resolve "x" = .ok ⟨4, .nonterminal⟩ :=
    (h.found ⟨4, .nonterminal⟩ (by decide) "x" (by decide)).mpr (by decide)
  refine ⟨hx, ?_, ?_, ?_, ?_⟩
  · exact fun hx => absurd ((h.found ⟨1, .terminal⟩ (by decide) "x" (by decide)).mp hx) (by decide)
  · intro hε
    exact absurd ((h.found ⟨2, .nonterminal⟩ (by decide) "epsilon" (by decide)).mp hε).1 (by decide)
  · exact (h.found ⟨3, .terminal⟩ (by decide) "dollar" (by decide)).mpr (by decide)
  · apply (h.unresolved "y" ⟨"y"⟩).mpr
    exact ⟨rfl, by decide, fun kind => by cases kind <;> decide⟩

end Lookahead.Registry
