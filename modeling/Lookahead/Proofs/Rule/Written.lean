import Lookahead.Proofs.Registry.Entries
import Lookahead.Proofs.Rule.Arrow
import Mathlib.Data.List.Forall2

/-!
# Rules written out

A rule is written when the names of its two sides stand in their order around one
arrow, with blanks between the names and, if one likes, at the ends and around
the arrow. `read_eq_ok_iff` says that reading accepts exactly the rules that are
written with names that can be told apart: words without an arrow in them.

So a production is read back from every layout of its names, and what is read
from a text has the words of the text for its names.
-/
namespace Lookahead

section Monad

variable {ε α β : Type}

theorem bind_eq_ok_iff {m : Except ε α} {f : α → Except ε β} {b : β} :
    (m >>= f) = .ok b ↔ ∃ a, m = .ok a ∧ f a = .ok b := by
  cases m with
  | error e =>
      refine iff_of_false (fun h => ?_) (fun h => ?_)
      · cases h
      · obtain ⟨_, h, _⟩ := h
        cases h
  | ok a => simp [bind, Except.bind]

theorem bind_eq_error_iff {m : Except ε α} {f : α → Except ε β} {e : ε} :
    (m >>= f) = .error e ↔ m = .error e ∨ ∃ a, m = .ok a ∧ f a = .error e := by
  cases m <;> simp [bind, Except.bind]

theorem mapM_eq_ok_iff {f : α → Except ε β} {l : List α} {k : List β} :
    l.mapM f = .ok k ↔ List.Forall₂ (fun a b => f a = .ok b) l k := by
  induction l generalizing k with
  | nil =>
      rw [List.mapM_nil, List.forall₂_nil_left_iff]
      constructor
      · intro h
        cases h
        rfl
      · intro h
        rw [h]
        rfl
  | cons a l ih =>
      rw [List.mapM_cons, bind_eq_ok_iff, List.forall₂_cons_left_iff]
      refine exists_congr fun b => ?_
      simp only [bind_eq_ok_iff, ih]
      constructor
      · intro h
        obtain ⟨hb, bs, hbs, he⟩ := h
        cases he
        exact ⟨bs, hb, hbs, rfl⟩
      · intro h
        obtain ⟨bs, hb, hbs, rfl⟩ := h
        exact ⟨hb, bs, hbs, rfl⟩

theorem map_eq_ok_iff {m : Except ε α} {f : α → β} {b : β} :
    m.map f = .ok b ↔ ∃ a, m = .ok a ∧ f a = b := by
  cases m <;> simp [Except.map]

theorem mapError_eq_ok_iff {ε' : Type} {m : Except ε α} {f : ε → ε'} {a : α} :
    m.mapError f = .ok a ↔ m = .ok a := by
  cases m <;> simp [Except.mapError]

theorem mapError_eq_error_iff {ε' : Type} {m : Except ε α} {f : ε → ε'} {e : ε'} :
    m.mapError f = .error e ↔ ∃ c, m = .error c ∧ f c = e := by
  cases m <;> simp [Except.mapError]

end Monad

namespace Rule

open Text

variable {r : Registry} {p : Production} {left right : List String} {text : String}

/-- A word that can stand in a rule. -/
def Writable (name : String) : Prop := IsWord name.toList ∧ ArrowFree name.toList

instance (name : String) : Decidable (Writable name) := inferInstanceAs (Decidable (_ ∧ _))

/-- The text writes the names of two sides around one arrow. -/
def Written (left right : List String) (text : String) : Prop :=
  ∃ before after, text.toList = before ++ arrow.toList ++ after ∧
    Spread (left.map String.toList) before ∧ Spread (right.map String.toList) after

/-- The rule with these names, with single blanks between them and around the arrow. -/
def join (left right : List String) : String :=
  " ".intercalate left ++ " -> " ++ " ".intercalate right

/-- The names stand for the symbols. -/
def Names (r : Registry) (names : List String) (symbols : List Symbol) : Prop :=
  List.Forall₂ (fun name s => r.resolve name = .ok s) names symbols

theorem resolveSide_eq_ok_iff {side : List Char} {symbols : List Symbol} :
    resolveSide r side = .ok symbols ↔ Names r ((words side).map String.ofList) symbols := by
  unfold resolveSide Names
  rw [mapM_eq_ok_iff, List.forall₂_map_left_iff]
  simp only [mapError_eq_ok_iff]

theorem ofSides_eq_ok_iff {before after : List Char} :
    ofSides r before after = .ok p ↔
      resolveSide r before = .ok p.lhs ∧ resolveSide r after = .ok p.rhs ∧
        p.lhs ≠ [] ∧ p.rhs ≠ [] := by
  unfold ofSides
  simp only [bind_eq_ok_iff]
  constructor
  · intro h
    obtain ⟨lhs, hl, rhs, hr, h⟩ := h
    split at h
    next => cases h
    next hlhs =>
      split at h
      next => cases h
      next hrhs =>
        cases h
        rw [List.isEmpty_iff] at hlhs hrhs
        exact ⟨hl, hr, hlhs, hrhs⟩
  · intro h
    obtain ⟨hl, hr, hlhs, hrhs⟩ := h
    refine ⟨p.lhs, hl, p.rhs, hr, ?_⟩
    rw [if_neg (mt List.isEmpty_iff.mp hlhs), if_neg (mt List.isEmpty_iff.mp hrhs)]

theorem ofChars_eq_ok_iff {chars : List Char} :
    ofChars r chars = .ok p ↔
      ∃ before after, chars = before ++ arrow.toList ++ after ∧ ArrowFree before ∧
        ArrowFree after ∧ ofSides r before after = .ok p := by
  rw [toList_arrow]
  constructor
  · intro h
    unfold ofChars at h
    split at h
    next => cases h
    next before after hcut =>
      split at h
      next => cases h
      next hnone =>
        refine ⟨before, after, ?_, arrowFree_of_cut? hcut, cut?_eq_none_iff.mp hnone, h⟩
        rw [List.append_assoc]
        exact eq_of_cut? hcut
  · intro h
    obtain ⟨before, after, rfl, hb, ha, h⟩ := h
    have hcut : cut? (before ++ '-' :: '>' :: after) = some (before, after) := cut?_append hb
    unfold ofChars
    rw [List.append_assoc, List.cons_append, List.singleton_append, hcut]
    simp only [cut?_eq_none_iff.mpr ha, h]

/-- The words of a side are the names that it is a layout of. -/
theorem map_words_eq_iff {side : List Char} {names : List String} :
    (words side).map String.ofList = names ↔
      (∀ name ∈ names, IsWord name.toList) ∧ Spread (names.map String.toList) side := by
  have hwords : (words side).map String.ofList = names ↔
      words side = names.map String.toList := by
    constructor
    · rintro rfl
      simp [List.map_map, Function.comp_def]
    · intro h
      simp [h, List.map_map, Function.comp_def]
  rw [hwords, words_eq_iff, List.forall_mem_map]

/-- A side without an arrow, and its words, are a layout of names that can stand in
a rule. -/
theorem words_eq_names_iff {side : List Char} {names : List String} :
    (words side).map String.ofList = names ∧ ArrowFree side ↔
      (∀ name ∈ names, Writable name) ∧ Spread (names.map String.toList) side := by
  rw [map_words_eq_iff]
  constructor
  · intro h
    obtain ⟨⟨hword, hs⟩, hfree⟩ := h
    refine ⟨fun name hname => ⟨hword name hname, ?_⟩, hs⟩
    exact hfree.of_infix (infix_of_spread hs (List.mem_map_of_mem hname))
  · intro h
    obtain ⟨hw, hs⟩ := h
    refine ⟨⟨fun name hname => (hw name hname).1, hs⟩, ?_⟩
    exact arrowFree_of_spread (List.forall_mem_map.mpr fun name hname => (hw name hname).2) hs

/-- A rule is read when it is written in words without an arrow that all stand for
symbols, with at least one of them on either side. -/
theorem read_eq_ok_iff :
    read r text = .ok p ↔
      ∃ left right, Written left right text ∧ (∀ name ∈ left ++ right, Writable name) ∧
        Names r left p.lhs ∧ Names r right p.rhs ∧ p.lhs ≠ [] ∧ p.rhs ≠ [] := by
  unfold read
  rw [mapError_eq_ok_iff, ofChars_eq_ok_iff]
  simp only [ofSides_eq_ok_iff, resolveSide_eq_ok_iff, List.forall_mem_append]
  constructor
  · intro h
    obtain ⟨before, after, htext, hb, ha, hlhs, hrhs, hne⟩ := h
    obtain ⟨hleft, hbefore⟩ := words_eq_names_iff.mp ⟨rfl, hb⟩
    obtain ⟨hright, hafter⟩ := words_eq_names_iff.mp ⟨rfl, ha⟩
    exact ⟨_, _, ⟨before, after, htext, hbefore, hafter⟩, ⟨hleft, hright⟩, hlhs, hrhs, hne⟩
  · intro h
    obtain ⟨left, right, ⟨before, after, htext, hbefore, hafter⟩, hw, hlhs, hrhs, hne⟩ := h
    obtain ⟨hl, hb⟩ := words_eq_names_iff.mpr ⟨hw.1, hbefore⟩
    obtain ⟨hr, ha⟩ := words_eq_names_iff.mpr ⟨hw.2, hafter⟩
    rw [← hl] at hlhs
    rw [← hr] at hrhs
    exact ⟨before, after, htext, hb, ha, hlhs, hrhs, hne⟩

section Layout

theorem spread_intercalate (ws : List (List Char)) : Spread ws ([' '].intercalate ws) := by
  have hgap : IsGap [] := by simp [IsGap]
  induction ws with
  | nil => exact .gap hgap
  | cons w ws ih =>
      cases ws with
      | nil =>
          have hone : Spread [w] ([] ++ (w ++ [])) := .word hgap (by simp) (.gap hgap)
          rw [List.nil_append, List.append_nil] at hone
          rw [List.intercalate_singleton]
          exact hone
      | cons v ws =>
          have hblank : isBlank ' ' = true := by decide
          rw [List.intercalate_cons_cons, List.append_assoc]
          refine .word hgap ?_ (ih.cons_blank hblank)
          intro c hc
          cases hc
          exact hblank

theorem Spread.concat_blank {c : Char} {ws : List (List Char)} {chars : List Char}
    (hc : isBlank c = true) (h : Spread ws chars) : Spread ws (chars ++ [c]) := by
  induction h with
  | @gap gap hg =>
      refine .gap fun d hd => ?_
      rcases List.mem_append.mp hd with hd | hd
      · exact hg d hd
      · rwa [List.mem_singleton.mp hd]
  | @word gap word chars ws hg ht _ ih =>
      rw [List.append_assoc, List.append_assoc]
      refine .word hg ?_ ih
      intro d hd
      cases chars with
      | nil =>
          cases hd
          exact hc
      | cons b chars => exact ht d hd

theorem written_join (left right : List String) : Written left right (join left right) := by
  have hblank : isBlank ' ' = true := by decide
  refine ⟨_, _, ?_, Spread.concat_blank hblank (spread_intercalate (left.map String.toList)),
    (spread_intercalate (right.map String.toList)).cons_blank hblank⟩
  simp [join, String.toList_intercalate, toList_arrow]

end Layout

section RoundTrip

/-- The name of the symbol stands for it, and can stand in a rule. -/
def Readable (r : Registry) (s : Symbol) : Prop :=
  ∃ name, r.name? s = some name ∧ r.resolve name = .ok s ∧ Writable name

/-- These are the names of the symbols, in their order. -/
def NamesOf (r : Registry) (symbols : List Symbol) (names : List String) : Prop :=
  symbols.map r.name? = names.map some

instance (r : Registry) (symbols : List Symbol) (names : List String) :
    Decidable (NamesOf r symbols names) :=
  inferInstanceAs (Decidable (_ = _))

theorem names_of_readable {symbols : List Symbol} {names : List String}
    (hs : ∀ s ∈ symbols, Readable r s) (hnames : NamesOf r symbols names) :
    Names r names symbols ∧ ∀ name ∈ names, Writable name := by
  induction symbols generalizing names with
  | nil =>
      have hnil : names = [] := List.map_eq_nil_iff.mp hnames.symm
      rw [hnil]
      exact ⟨.nil, by simp⟩
  | cons s symbols ih =>
      cases names with
      | nil => cases hnames
      | cons name names =>
          obtain ⟨hname, hrest⟩ := List.cons.inj hnames
          obtain ⟨⟨name', hname', hresolve, hw⟩, hs⟩ := List.forall_mem_cons.mp hs
          obtain ⟨hn, hws⟩ := ih hs hrest
          rw [hname] at hname'
          cases hname'
          exact ⟨.cons hresolve hn, List.forall_mem_cons.mpr ⟨hw, hws⟩⟩

theorem namesOf_of_names (hr : r.Issued) {symbols : List Symbol} {names : List String}
    (h : Names r names symbols) : NamesOf r symbols names := by
  obtain ⟨entries, hr⟩ := hr.exists_records
  unfold NamesOf
  induction h with
  | nil => rfl
  | cons hs _ ih => rw [List.map_cons, List.map_cons, ih, hr.name?_of_resolve hs]

/-- Rules and productions determine each other. A production whose symbols are
found under their own names is read from every layout of these names. What is read
from a text has the words of its two sides for names, and is read again from the
plain layout of them. -/
theorem read_written (hr : r.Issued) :
    (∀ (p : Production) (left right : List String) (text : String),
        p.lhs ≠ [] → p.rhs ≠ [] → (∀ s ∈ p.lhs ++ p.rhs, Readable r s) →
        NamesOf r p.lhs left → NamesOf r p.rhs right → Written left right text →
        read r text = .ok p) ∧
      ∀ (text : String) (p : Production), read r text = .ok p →
        ∃ left right, NamesOf r p.lhs left ∧ NamesOf r p.rhs right ∧
          (∀ name ∈ left ++ right, Writable name) ∧ Written left right text ∧
          read r (join left right) = .ok p := by
  constructor
  · intro p left right text hlhs hrhs hs hleft hright htext
    rw [List.forall_mem_append] at hs
    obtain ⟨hl, hwl⟩ := names_of_readable hs.1 hleft
    obtain ⟨hr, hwr⟩ := names_of_readable hs.2 hright
    have hw := List.forall_mem_append.mpr ⟨hwl, hwr⟩
    exact read_eq_ok_iff.mpr ⟨left, right, htext, hw, hl, hr, hlhs, hrhs⟩
  · intro text p h
    obtain ⟨left, right, htext, hw, hl, hright, hne⟩ := read_eq_ok_iff.mp h
    have hjoin : read r (join left right) = .ok p :=
      read_eq_ok_iff.mpr ⟨left, right, written_join left right, hw, hl, hright, hne⟩
    exact ⟨left, right, namesOf_of_names hr hl, namesOf_of_names hr hright, hw, htext, hjoin⟩

/-- One name that ends like an arrow begins, and one that begins like an arrow ends. -/
def dashes : Registry := (Registry.ofList [("a-", .nonterminal), (">b", .terminal)]).value

/-- The arrow is found between the two names without any blank, and a blank that
is no space divides the others. -/
theorem read_written_dashes :
    dashes.Issued ∧
      Written ["a-"] [">b", "epsilon"] "a-->>b\u2003epsilon\n" ∧
      read dashes "a-->>b\u2003epsilon\n" =
        .ok ⟨[⟨1, .nonterminal⟩], [⟨2, .terminal⟩, .epsilon]⟩ ∧
      ∃ left right, NamesOf dashes [⟨1, .nonterminal⟩] left ∧
        NamesOf dashes [⟨2, .terminal⟩, .epsilon] right ∧
        read dashes (join left right) = .ok ⟨[⟨1, .nonterminal⟩], [⟨2, .terminal⟩, .epsilon]⟩ := by
  have hissued : dashes.Issued := Registry.issued_ofList _
  obtain ⟨hwritten, hread⟩ := read_written hissued
  have htext : Written ["a-"] [">b", "epsilon"] "a-->>b\u2003epsilon\n" :=
    ⟨"a-".toList, ">b\u2003epsilon\n".toList, by decide, (words_eq_iff.mp (by decide)).2,
      (words_eq_iff.mp (by decide)).2⟩
  have hs : ∀ s ∈ [⟨1, .nonterminal⟩] ++ [⟨2, .terminal⟩, .epsilon], Readable dashes s := by
    have ha : Readable dashes ⟨1, .nonterminal⟩ := ⟨"a-", by decide⟩
    have hb : Readable dashes ⟨2, .terminal⟩ := ⟨">b", by decide⟩
    have he : Readable dashes .epsilon := ⟨"epsilon", by decide⟩
    simp [ha, hb, he]
  have hrule := hwritten ⟨_, _⟩ ["a-"] [">b", "epsilon"] _ (by simp) (by simp) hs (by decide)
    (by decide) htext
  obtain ⟨left, right, hleft, hright, _, _, hjoin⟩ := hread _ _ hrule
  exact ⟨hissued, htext, hrule, left, right, hleft, hright, hjoin⟩

end RoundTrip

end Rule

end Lookahead
