import Lookahead.Proofs.Ascending
import Lookahead.Proofs.Registry.Issued

/-!
# Registries as lists of names

A registry stands for a list of entries, names with their kinds, in the order in
which they were first issued. Its parts repeat one another: the counter, the table
of names, the index of each kind and the terminal bits must all tell of the same
list, and `Records` says that they do. Issuing a name keeps this, so a registry records the
different names that it was given (`records_ofList`), and whatever it answers is
read off that list.
-/
namespace Lookahead

namespace Registry

variable {r : Registry} {entries rest : List (String × Kind)} {s : Symbol}
  {name : String} {kind : Kind} {e : String × Kind}

/-- The list has an entry for `s` with this name. The identity of `s` is the
number of the entry, and its kind is that of the entry. -/
def Entered (entries : List (String × Kind)) (s : Symbol) (name : String) : Prop :=
  ∃ i : ℕ, entries[i]? = some (name, s.kind) ∧ s.id = Symbol.firstId + i

/-- The symbols of the entries, in their order. -/
def symbolsOf (entries : List (String × Kind)) : List Symbol :=
  entries.mapIdx fun i e => ⟨Symbol.firstId + i, e.2⟩

/-- The counter and every table of the registry tell of these entries. -/
structure Records (r : Registry) (entries : List (String × Kind)) : Prop where
  nextId : r.nextId = Symbol.firstId + entries.length
  names : r.names.toList = entries.map (·.1)
  index : ∀ name kind s, (r.index kind)[name]? = some s ↔ s.kind = kind ∧ Entered entries s name
  bits : ∀ s, r.terminalBits.has s = true ↔ ∃ name, Entered entries ⟨s.id, .terminal⟩ name

section Entered

theorem Entered.id_pos (h : Entered entries s name) : 0 < s.id := by
  obtain ⟨i, _, hid⟩ := h
  rw [hid, Symbol.firstId]
  omega

theorem Entered.id_le (h : Entered entries s name) : s.id ≤ entries.length := by
  obtain ⟨i, hi, hid⟩ := h
  have hlt := (List.getElem?_eq_some_iff.mp hi).1
  rw [hid, Symbol.firstId]
  omega

theorem entered_mk {i : ℕ} :
    Entered entries ⟨Symbol.firstId + i, kind⟩ name ↔ entries[i]? = some (name, kind) := by
  constructor
  · intro h
    obtain ⟨j, hj, hid⟩ := h
    have hij : i = j := by
      change Symbol.firstId + (i : ℤ) = Symbol.firstId + j at hid
      omega
    rw [hij]
    exact hj
  · intro h
    exact ⟨i, h, rfl⟩

theorem exists_entered_iff_mem :
    (∃ s, s.kind = kind ∧ Entered entries s name) ↔ (name, kind) ∈ entries := by
  rw [List.mem_iff_getElem?]
  constructor
  · intro h
    obtain ⟨s, rfl, i, hi, _⟩ := h
    exact ⟨i, hi⟩
  · intro h
    obtain ⟨i, hi⟩ := h
    exact ⟨_, rfl, entered_mk.mpr hi⟩

/-- A further entry gets the next identity and moves no other. -/
theorem entered_concat :
    Entered (entries ++ [e]) s name ↔
      Entered entries s name ∨
        (s.id = Symbol.firstId + entries.length ∧ e = (name, s.kind)) := by
  constructor
  · intro h
    obtain ⟨i, hi, hid⟩ := h
    rcases Nat.lt_or_ge i entries.length with hlt | hge
    · rw [List.getElem?_append_left hlt] at hi
      exact .inl ⟨i, hi, hid⟩
    · rw [List.getElem?_append_right hge, List.getElem?_singleton] at hi
      split at hi
      next h0 =>
        have he : i = entries.length := by omega
        rw [he] at hid
        exact .inr ⟨hid, Option.some.inj hi⟩
      next => cases hi
  · intro h
    rcases h with ⟨i, hi, hid⟩ | ⟨hid, rfl⟩
    · have hlt := (List.getElem?_eq_some_iff.mp hi).1
      exact ⟨i, (List.getElem?_append_left hlt).trans hi, hid⟩
    · exact ⟨entries.length, List.getElem?_concat_length, hid⟩

theorem entered_append (h : s.id ≤ entries.length) :
    Entered (entries ++ rest) s name ↔ Entered entries s name := by
  unfold Entered
  refine exists_congr fun i => and_congr_left fun hid => ?_
  rw [Symbol.firstId] at hid
  rw [List.getElem?_append_left (by omega)]

theorem mem_symbolsOf : s ∈ symbolsOf entries ↔ ∃ name, Entered entries s name := by
  unfold symbolsOf
  rw [List.mem_mapIdx]
  constructor
  · intro h
    obtain ⟨i, hi, rfl⟩ := h
    exact ⟨entries[i].1, entered_mk.mpr (List.getElem?_eq_getElem hi)⟩
  · intro h
    obtain ⟨name, i, hi, hid⟩ := h
    obtain ⟨hlt, he⟩ := List.getElem?_eq_some_iff.mp hi
    refine ⟨i, hlt, ?_⟩
    rw [he, ← hid]

theorem pairwise_symbolsOf (entries : List (String × Kind)) :
    (symbolsOf entries).Pairwise (·.id < ·.id) := by
  rw [List.pairwise_iff_getElem]
  intro i j hi hj hij
  simp only [symbolsOf, List.getElem_mapIdx, Symbol.firstId]
  omega

end Entered

section Step

theorem index_add (r : Registry) (name : String) (kind : Kind) (name' : String) (kind' : Kind) :
    ((r.add name kind).index kind')[name']? =
      if (name, kind) = (name', kind') then some (r.nextSymbol kind)
      else (r.index kind')[name']? := by
  cases kind <;> cases kind' <;>
    simp [add, index, Std.TreeMap.getElem?_insert]

theorem Records.size_eq (h : r.Records entries) : r.size = entries.length := by
  rw [size, ← Array.length_toList, h.names, List.length_map]

theorem Records.nextSymbol_eq (h : r.Records entries) (kind : Kind) :
    r.nextSymbol kind = ⟨Symbol.firstId + entries.length, kind⟩ := by
  rw [nextSymbol, h.nextId]

theorem records_empty : empty.Records [] where
  nextId := rfl
  names := rfl
  index name kind s := by cases kind <;> simp [empty, index, Entered]
  bits s := by simp [empty, Entered]

theorem Records.index_eq_none (h : r.Records entries) :
    (r.index kind)[name]? = none ↔ (name, kind) ∉ entries := by
  rw [← exists_entered_iff_mem, Option.eq_none_iff_forall_ne_some]
  simp only [ne_eq, h.index, not_exists]

/-- A new name goes into every table. -/
theorem Records.add (h : r.Records entries) (hnew : (name, kind) ∉ entries) :
    (r.add name kind).Records (entries ++ [(name, kind)]) where
  nextId := by
    rw [nextId_add, h.nextId, List.length_append, List.length_singleton]
    omega
  names := by
    have hpush : (r.add name kind).names = r.names.push name := by cases kind <;> rfl
    rw [hpush, Array.toList_push, h.names, List.map_append]
    rfl
  index name' kind' s := by
    rw [index_add, entered_concat, ← h.nextId]
    split
    next he =>
      cases he
      have hno : s.kind = kind → ¬ Entered entries s name := fun hk hs =>
        hnew (exists_entered_iff_mem.mp ⟨s, hk, hs⟩)
      constructor
      · intro hs
        cases hs
        exact ⟨rfl, .inr ⟨rfl, rfl⟩⟩
      · intro hs
        obtain ⟨rfl, hs | ⟨hid, _⟩⟩ := hs
        · exact absurd hs (hno rfl)
        · rw [nextSymbol, ← hid]
    next he =>
      rw [h.index]
      refine and_congr_right fun hk => (or_iff_left ?_).symm
      rw [hk]
      exact fun hs => he hs.2
  bits s := by
    have h0 : 0 ≤ r.nextId := by
      rw [h.nextId, Symbol.firstId]
      omega
    rw [has_terminalBits_add h0, h.bits, h.nextId]
    simp only [entered_concat, Prod.mk.injEq, exists_or]
    rw [or_comm]
    refine or_congr_right ?_
    constructor
    · intro hs
      exact ⟨name, hs.1, rfl, hs.2⟩
    · intro hs
      obtain ⟨_, hid, _, hk⟩ := hs
      exact ⟨hid, hk⟩

theorem Records.issue_known {i : ℕ} (h : r.Records entries)
    (hi : entries[i]? = some (name, kind)) :
    (r.issue name kind).value = (⟨Symbol.firstId + i, kind⟩, r) := by
  have hs : (r.index kind)[name]? = some ⟨Symbol.firstId + i, kind⟩ :=
    (h.index name kind _).mpr ⟨rfl, entered_mk.mpr hi⟩
  unfold Registry.issue
  rw [hs]
  rfl

theorem Records.issue_new (h : r.Records entries) (hnew : (name, kind) ∉ entries) :
    (r.issue name kind).value =
      (⟨Symbol.firstId + entries.length, kind⟩, r.add name kind) := by
  unfold Registry.issue
  rw [h.index_eq_none.mpr hnew, ← h.nextSymbol_eq]
  rfl

/-- Issuing a name adds an entry when there is none for it. -/
theorem Records.issue (h : r.Records entries) (name : String) (kind : Kind) :
    (r.issue name kind).value.2.Records
      (if (name, kind) ∈ entries then entries else entries ++ [(name, kind)]) := by
  split
  next hmem =>
    obtain ⟨i, hi⟩ := List.mem_iff_getElem?.mp hmem
    rw [h.issue_known hi]
    exact h
  next hnew =>
    rw [h.issue_new hnew]
    exact h.add hnew

theorem eraseDups_concat (names : List (String × Kind)) (e : String × Kind) :
    (names ++ [e]).eraseDups =
      if e ∈ names.eraseDups then names.eraseDups else names.eraseDups ++ [e] := by
  rw [List.eraseDups_append]
  simp only [List.mem_eraseDups]
  split
  next he => simp [List.removeAll, he]
  next he => simp [List.removeAll, he, List.eraseDups_cons]

theorem Records.issueAll {names : List (String × Kind)} (h : r.Records names.eraseDups)
    (later : List (String × Kind)) :
    (r.issueAll later).value.Records (names ++ later).eraseDups := by
  induction later generalizing r names with
  | nil =>
      rw [List.append_nil]
      exact h
  | cons e later ih =>
      rw [List.append_cons]
      apply ih
      rw [eraseDups_concat]
      exact h.issue e.1 e.2

/-- A registry records the different names that it was given, in the order in
which they came first. -/
theorem records_ofList (names : List (String × Kind)) :
    (ofList names).value.Records names.eraseDups := by
  have hempty : empty.Records ([] : List (String × Kind)).eraseDups := records_empty
  exact hempty.issueAll names

theorem Issued.exists_records (h : r.Issued) : ∃ entries, r.Records entries := by
  induction h with
  | empty => exact ⟨[], records_empty⟩
  | issue name kind _ ih =>
      obtain ⟨entries, h⟩ := ih
      exact ⟨_, h.issue name kind⟩

end Step

section Answers

theorem name?_of_pos (h0 : 0 < s.id) :
    r.name? s =
      if r.contains s then (s.id - Symbol.firstId).toNat?.bind (r.names[·]?) else none := by
  unfold name?
  rw [if_neg, if_neg]
  · rw [Symbol.same_iff, Symbol.endMarker_id]
    omega
  · rw [Symbol.same_iff, Symbol.epsilon_id]
    omega

/-- One entry for each identity that was issued. -/
theorem exists_entered (h0 : 0 < s.id) (hs : s.id ≤ entries.length) :
    ∃ kind name, Entered entries ⟨s.id, kind⟩ name := by
  have hlt : (s.id - 1).toNat < entries.length := by omega
  refine ⟨entries[(s.id - 1).toNat].2, entries[(s.id - 1).toNat].1, (s.id - 1).toNat, ?_, ?_⟩
  · exact List.getElem?_eq_getElem hlt
  · change s.id = 1 + ((s.id - 1).toNat : ℤ)
    omega

theorem Entered.unique {t : Symbol} {name' : String} (hs : Entered entries s name)
    (ht : Entered entries t name') (hid : s.id = t.id) : name = name' ∧ s.kind = t.kind := by
  obtain ⟨i, hi, his⟩ := hs
  obtain ⟨j, hj, hjt⟩ := ht
  have hij : i = j := by omega
  rw [hij, hj] at hi
  have he := Prod.mk.inj (Option.some.inj hi)
  exact ⟨he.1.symm, he.2.symm⟩

namespace Records

theorem lt_nextId_iff (h : r.Records entries) : s.id < r.nextId ↔ s.id ≤ entries.length := by
  rw [h.nextId, Symbol.firstId]
  omega

/-- The terminal bit of an identity tells the kind of its entry. -/
theorem has_terminalBits (h : r.Records entries) (hs : Entered entries s name) :
    r.terminalBits.has s = s.isTerminal := by
  rw [Bool.eq_iff_iff, h.bits, Symbol.isTerminal_iff]
  constructor
  · intro ht
    obtain ⟨_, ht⟩ := ht
    exact (hs.unique ht rfl).2
  · intro hk
    refine ⟨name, ?_⟩
    rw [← hk]
    exact hs

theorem contains_iff (h : r.Records entries) :
    r.contains s = true ↔ s.id ≤ 0 ∨ ∃ name, Entered entries s name := by
  rw [Registry.contains_iff, h.lt_nextId_iff]
  refine or_congr_right' fun h0 => ?_
  constructor
  · intro hs
    obtain ⟨kind, name, hk⟩ := exists_entered (Int.not_le.mp h0) hs.1
    have hbit : r.terminalBits.has s = (Symbol.mk s.id kind).isTerminal :=
      (r.terminalBits.has_congr rfl).trans (h.has_terminalBits hk)
    have hkind : s.kind = kind := by
      rw [hs.2, Symbol.isTerminal, Symbol.isTerminal] at hbit
      revert hbit
      cases s.kind <;> cases kind <;> simp
    refine ⟨name, ?_⟩
    rw [← hkind] at hk
    exact hk
  · intro hs
    obtain ⟨name, hs⟩ := hs
    exact ⟨hs.id_le, h.has_terminalBits hs⟩

theorem isTerminal_iff (h : r.Records entries) :
    r.isTerminal s = true ↔ s.kind = .terminal ∧ ∃ name, Entered entries s name := by
  simp only [Registry.isTerminal, Bool.and_eq_true, Bool.not_eq_true', Bool.eq_false_iff,
    ne_eq, Symbol.isReserved_iff, Symbol.isTerminal_iff, h.contains_iff]
  constructor
  · intro hs
    exact ⟨hs.1.2, hs.2.resolve_left hs.1.1⟩
  · intro hs
    obtain ⟨hk, name, hs⟩ := hs
    exact ⟨⟨Int.not_le.mpr hs.id_pos, hk⟩, .inr ⟨name, hs⟩⟩

theorem mem_nonterminals_iff (h : r.Records entries) :
    s ∈ r.nonterminals ↔ s.kind = .nonterminal ∧ ∃ name, Entered entries s name := by
  rw [mem_nonterminals_iff_contains, h.contains_iff]
  refine and_congr_right fun _ => ?_
  constructor
  · intro hs
    exact hs.2.resolve_left (Int.not_le.mpr hs.1)
  · intro hs
    exact ⟨hs.choose_spec.id_pos, .inr hs⟩

theorem mem_terminals_iff (h : r.Records entries) :
    s ∈ r.terminals ↔ s.kind = .terminal ∧ ∃ name, Entered entries s name := by
  rw [mem_terminals, h.bits]
  refine and_congr_right fun hk => ?_
  rw [← hk]

theorem mem_append_iff (h : r.Records entries) :
    s ∈ r.nonterminals ++ r.terminals ↔ ∃ name, Entered entries s name := by
  rw [List.mem_append, h.mem_nonterminals_iff, h.mem_terminals_iff, ← or_and_right]
  cases s.kind <;> simp

theorem eq_filter_symbolsOf {l : List Symbol} {p : Symbol → Bool}
    (hl : (l.map (·.id)).Pairwise (· < ·))
    (hmem : ∀ s, s ∈ l ↔ p s = true ∧ ∃ name, Entered entries s name) :
    l = (symbolsOf entries).filter p := by
  apply Ascending.eq_of_mem_iff Symbol.id (List.pairwise_map.mp hl)
    ((pairwise_symbolsOf entries).filter p)
  intro s
  rw [hmem, List.mem_filter, mem_symbolsOf, and_comm]

theorem nonterminals_eq (h : r.Records entries) :
    r.nonterminals = (symbolsOf entries).filter (·.isNonterminal) := by
  apply eq_filter_symbolsOf r.pairwise_nonterminals
  intro s
  rw [h.mem_nonterminals_iff, Symbol.isNonterminal_iff]

theorem terminals_eq (h : r.Records entries) :
    r.terminals = (symbolsOf entries).filter (·.isTerminal) := by
  apply eq_filter_symbolsOf r.pairwise_terminals
  intro s
  rw [h.mem_terminals_iff, Symbol.isTerminal_iff]

theorem exists_id_iff (h : r.Records entries) (i : ℤ) :
    (∃ s ∈ r.nonterminals ++ r.terminals, s.id = i) ↔
      Symbol.firstId ≤ i ∧ i ≤ entries.length := by
  constructor
  · intro hi
    obtain ⟨s, hs, rfl⟩ := hi
    obtain ⟨_, hs⟩ := h.mem_append_iff.mp hs
    exact ⟨hs.id_pos, hs.id_le⟩
  · intro hi
    obtain ⟨kind, name, hs⟩ := exists_entered (s := ⟨i, .terminal⟩) hi.1 hi.2
    exact ⟨⟨i, kind⟩, h.mem_append_iff.mpr ⟨name, hs⟩, rfl⟩

theorem name?_eq_some (h : r.Records entries) (hs : Entered entries s name) :
    r.name? s = some name := by
  have h0 := hs.id_pos
  have hc : r.contains s = true := h.contains_iff.mpr (.inr ⟨name, hs⟩)
  obtain ⟨i, hi, hid⟩ := hs
  have hindex : (s.id - Symbol.firstId).toNat? = some i := by
    have hsub : s.id - Symbol.firstId = (i : ℤ) := by omega
    rw [hsub]
    rfl
  have hname : r.names[i]? = some name := by
    rw [← Array.getElem?_toList, h.names, List.getElem?_map, hi]
    rfl
  rw [name?_of_pos h0, if_pos hc, hindex]
  exact hname

theorem name?_iff (h : r.Records entries) (h0 : 0 < s.id) :
    r.name? s = some name ↔ Entered entries s name := by
  refine ⟨fun hname => ?_, h.name?_eq_some⟩
  have hc : r.contains s = true := by
    by_contra hno
    rw [name?_of_pos h0, if_neg hno] at hname
    cases hname
  obtain ⟨name', hs⟩ := (h.contains_iff.mp hc).resolve_left (Int.not_le.mpr h0)
  rw [h.name?_eq_some hs] at hname
  cases hname
  exact hs

end Records

/-- A name stands for the empty string, or for an entry with this name. -/
theorem Records.entered_of_resolve (h : r.Records entries) (hs : r.resolve name = .ok s) :
    (name = epsilonName ∧ s = .epsilon) ∨ (name ≠ epsilonName ∧ Entered entries s name) := by
  unfold resolve at hs
  split at hs
  next he =>
    cases hs
    exact .inl ⟨he, rfl⟩
  next he =>
    refine .inr ⟨he, ?_⟩
    split at hs
    next t ht =>
      cases hs
      cases hn : r.nonterminalIndex[name]? with
      | some n =>
          rw [hn] at ht
          cases ht
          exact ((h.index name .nonterminal s).mp hn).2
      | none =>
          rw [hn] at ht
          exact ((h.index name .terminal s).mp ht).2
    next => cases hs

/-- What a name stands for has this name. -/
theorem Records.name?_of_resolve (h : r.Records entries) (hs : r.resolve name = .ok s) :
    r.name? s = some name := by
  rcases h.entered_of_resolve hs with ⟨rfl, rfl⟩ | ⟨_, hs⟩
  · rfl
  · exact h.name?_eq_some hs

/-- The names of reserved symbols are the same everywhere. -/
theorem name?_of_reserved (r r' : Registry) (h0 : s.id ≤ 0) : r.name? s = r'.name? s := by
  have hc (r : Registry) : r.contains s = true := contains_of_id_le h0
  have hindex : (s.id - Symbol.firstId).toNat? = none := by
    rw [Symbol.firstId]
    cases hi : s.id - 1 with
    | ofNat i =>
        change s.id - 1 = (i : ℤ) at hi
        omega
    | negSucc i => rfl
  unfold name?
  rw [hc, hc, hindex]
  rfl

end Answers

end Registry

end Lookahead
