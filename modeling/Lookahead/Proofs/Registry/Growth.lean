import Lookahead.Proofs.Registry.Entries

/-!
# Registries that grow

Issuing never takes anything back: the entries of a registry are a first part of
the entries that it has later, so every answer about a symbol that was issued
stays (`Keeps`). Together with the entries that a registry records, this makes
it an append-only list: `ofList_reads` says how each answer is read off the list,
when the list grows, and what growing leaves alone.
-/
namespace Lookahead.Registry

variable {r r' : Registry} {entries rest : List (String × Kind)} {s : Symbol}

/-- The answers of the registry are read off these entries. -/
structure Reads (r : Registry) (entries : List (String × Kind)) : Prop where
  issue : ∀ (i : ℕ) (name : String) (kind : Kind), entries[i]? = some (name, kind) →
    (r.issue name kind).value = (⟨Symbol.firstId + i, kind⟩, r)
  size : r.size = entries.length
  nonterminals : r.nonterminals = (symbolsOf entries).filter (·.isNonterminal)
  terminals : r.terminals = (symbolsOf entries).filter (·.isTerminal)
  disjoint : ∀ n ∈ r.nonterminals, ∀ t ∈ r.terminals, n.id ≠ t.id
  covers : ∀ i : ℤ, (∃ s ∈ r.nonterminals ++ r.terminals, s.id = i) ↔
    Symbol.firstId ≤ i ∧ i ≤ entries.length
  name? : ∀ (i : ℕ) (name : String) (kind : Kind), entries[i]? = some (name, kind) →
    r.name? ⟨Symbol.firstId + i, kind⟩ = some name
  contains : ∀ s, r.contains s = true ↔ s.id ≤ 0 ∨ ∃ name, Entered entries s name
  isTerminal : ∀ s, r.isTerminal s = true ↔ s.kind = .terminal ∧ ∃ name, Entered entries s name

/-- `r'` gives the answers of `r` about every name that `r` knows, and about every
identity up to the last one that `r` has issued. -/
structure Keeps (r r' : Registry) : Prop where
  issue : ∀ name kind s, (r.issue name kind).value = (s, r) → (r'.issue name kind).value = (s, r')
  name? : ∀ s : Symbol, s.id ≤ r.size → r'.name? s = r.name? s
  contains : ∀ s : Symbol, s.id ≤ r.size → r'.contains s = r.contains s
  isTerminal : ∀ s : Symbol, s.id ≤ r.size → r'.isTerminal s = r.isTerminal s
  isNonterminal : ∀ s : Symbol, s.id ≤ r.size → r'.isNonterminal s = r.isNonterminal s
  nonterminals : r.nonterminals <+: r'.nonterminals
  terminals : r.terminals <+: r'.terminals

theorem Records.reads (h : r.Records entries) : r.Reads entries where
  issue _ _ _ := h.issue_known
  size := h.size_eq
  nonterminals := h.nonterminals_eq
  terminals := h.terminals_eq
  disjoint _ hn _ ht := id_ne_of_mem hn ht
  covers := h.exists_id_iff
  name? _ _ _ hi := h.name?_eq_some (entered_mk.mpr hi)
  contains _ := h.contains_iff
  isTerminal _ := h.isTerminal_iff

section Keeps

theorem symbolsOf_prefix_append (entries rest : List (String × Kind)) :
    symbolsOf entries <+: symbolsOf (entries ++ rest) := by
  unfold symbolsOf
  rw [List.mapIdx_append]
  exact List.prefix_append _ _

/-- The registry is left alone exactly by issuing a name that it knows. -/
theorem Records.issue_eq_self_iff (h : r.Records entries) {name : String} {kind : Kind} :
    (r.issue name kind).value = (s, r) ↔ s.kind = kind ∧ Entered entries s name := by
  rw [← h.index]
  unfold Registry.issue
  cases hs : (r.index kind)[name]? with
  | some t => simp
  | none =>
      have hne : r.add name kind ≠ r := by
        intro he
        have hsize := r.size_add name kind
        rw [he] at hsize
        omega
      simp [hne]

theorem Records.contains_append (h : r.Records entries) (h' : r'.Records (entries ++ rest))
    (hs : s.id ≤ r.size) : r'.contains s = r.contains s := by
  rw [h.size_eq] at hs
  rw [Bool.eq_iff_iff, h.contains_iff, h'.contains_iff]
  simp only [entered_append hs]

theorem Records.name?_append (h : r.Records entries) (h' : r'.Records (entries ++ rest))
    (hs : s.id ≤ r.size) : r'.name? s = r.name? s := by
  rw [h.size_eq] at hs
  rcases Int.lt_or_le 0 s.id with h0 | h0
  · ext name
    rw [h.name?_iff h0, h'.name?_iff h0, entered_append hs]
  · exact name?_of_reserved r' r h0

theorem Records.keeps (h : r.Records entries) (h' : r'.Records (entries ++ rest)) :
    r.Keeps r' where
  issue name kind s hs := by
    rw [h.issue_eq_self_iff] at hs
    rw [h'.issue_eq_self_iff, entered_append hs.2.id_le]
    exact hs
  name? _ := h.name?_append h'
  contains _ := h.contains_append h'
  isTerminal s hs := by rw [isTerminal, isTerminal, h.contains_append h' hs]
  isNonterminal s hs := by rw [isNonterminal, isNonterminal, h.contains_append h' hs]
  nonterminals := by
    rw [h.nonterminals_eq, h'.nonterminals_eq]
    exact (symbolsOf_prefix_append entries rest).filter _
  terminals := by
    rw [h.terminals_eq, h'.terminals_eq]
    exact (symbolsOf_prefix_append entries rest).filter _

end Keeps

theorem issueAll_append (r : Registry) (names later : List (String × Kind)) :
    (r.issueAll (names ++ later)).value = ((r.issueAll names).value.issueAll later).value := by
  induction names generalizing r with
  | nil => rfl
  | cons e names ih => exact ih (r.issue e.1 e.2).value.2

theorem ofList_concat (names : List (String × Kind)) (name : String) (kind : Kind) :
    (ofList (names ++ [(name, kind)])).value =
      ((ofList names).value.issue name kind).value.2 :=
  issueAll_append empty names [(name, kind)]

theorem ofList_keeps (names later : List (String × Kind)) :
    (ofList names).value.Keeps ((ofList names).value.issueAll later).value := by
  have hlater := (records_ofList names).issueAll later
  rw [List.eraseDups_append] at hlater
  exact (records_ofList names).keeps hlater

/-- The registries that issuing can build are those of lists of names. -/
theorem Issued.exists_ofList (h : r.Issued) : ∃ names, (ofList names).value = r := by
  induction h with
  | empty => exact ⟨[], rfl⟩
  | issue name kind _ ih =>
      obtain ⟨names, rfl⟩ := ih
      exact ⟨names ++ [(name, kind)], ofList_concat names name kind⟩

theorem Issued.keeps_issueAll (h : r.Issued) (names : List (String × Kind)) :
    r.Keeps (r.issueAll names).value := by
  obtain ⟨earlier, rfl⟩ := h.exists_ofList
  exact ofList_keeps earlier names

/-- A registry is the list of the different names that it was given, each with its
kind, in the order in which they came first. A name that is in the list keeps its
symbol, a new one gets the next identity at the end of it, and names that come
later change nothing of what was there. -/
theorem ofList_reads (names : List (String × Kind)) :
    (ofList names).value.Reads names.eraseDups ∧
      (∀ name kind, (name, kind) ∉ names →
        (names ++ [(name, kind)]).eraseDups = names.eraseDups ++ [(name, kind)] ∧
          ((ofList names).value.issue name kind).value =
            (⟨Symbol.firstId + names.eraseDups.length, kind⟩,
              (ofList (names ++ [(name, kind)])).value)) ∧
      ∀ later,
        ((ofList names).value.issueAll later).value = (ofList (names ++ later)).value ∧
          names.eraseDups <+: (names ++ later).eraseDups ∧
          (ofList names).value.Keeps (ofList (names ++ later)).value := by
  refine ⟨(records_ofList names).reads, ?_, ?_⟩
  · intro name kind hnew
    rw [← List.mem_eraseDups] at hnew
    refine ⟨by rw [eraseDups_concat, if_neg hnew], ?_⟩
    rw [ofList_concat, (records_ofList names).issue_new hnew]
  · intro later
    have happend := issueAll_append empty names later
    refine ⟨happend.symm, ?_, ?_⟩
    · rw [List.eraseDups_append]
      exact List.prefix_append _ _
    · exact happend ▸ ofList_keeps names later

/-- One name under both kinds, the first time and again. -/
def overlap : List (String × Kind) :=
  [("x", .terminal), ("x", .nonterminal), ("x", .terminal)]

/-- The second entry of `overlap` is known, also after a third name came. -/
theorem ofList_reads_overlap :
    overlap.eraseDups = [("x", .terminal), ("x", .nonterminal)] ∧
      ((ofList overlap).value.issue "x" .nonterminal).value =
        (⟨2, .nonterminal⟩, (ofList overlap).value) ∧
      ("y", .terminal) ∉ overlap ∧
      ((ofList overlap).value.issue "y" .terminal).value.1 = ⟨3, .terminal⟩ ∧
      (ofList (overlap ++ [("y", .terminal)])).value.name? ⟨2, .nonterminal⟩ = some "x" := by
  obtain ⟨hreads, hnew, hlater⟩ := ofList_reads overlap
  have hentries : overlap.eraseDups = [("x", .terminal), ("x", .nonterminal)] := by decide
  have hy : ("y", .terminal) ∉ overlap := by decide
  rw [hentries] at hreads
  refine ⟨hentries, hreads.issue 1 "x" .nonterminal rfl, hy, ?_, ?_⟩
  · rw [(hnew "y" .terminal hy).2, hentries]
    rfl
  · have hsize : (2 : ℤ) ≤ (ofList overlap).value.size := by
      rw [hreads.size]
      decide
    rw [(hlater [("y", .terminal)]).2.2.name? ⟨2, .nonterminal⟩ hsize]
    exact hreads.name? 1 "x" .nonterminal rfl

end Lookahead.Registry
