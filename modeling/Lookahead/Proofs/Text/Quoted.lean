import Lookahead.Text.Quoted
import Mathlib.Logic.Function.Basic
import Mathlib.Data.List.TakeWhile

/-!
# Quoted texts are read in one way

A code is self-delimiting when its words can be told apart whatever is written
after them. An escaped character is such a word, with the closing brace as the
mark behind the digits of a code point. So is a quoted text, since none of its
escapes begins with the closing quote. All characters of a quoted text are
printable.
-/
namespace Lookahead.Text

/-! ### Codes -/

section Codes

variable {α : Type} {code : α → List Char}

/-- From a word and whatever follows it, both can be recovered. -/
def SelfDelimiting (code : α → List Char) : Prop :=
  ∀ ⦃a b : α⦄ ⦃u v : List Char⦄, code a ++ u = code b ++ v → a = b ∧ u = v

theorem takeWhile_mark {mark : Char} {word : List Char} (h : mark ∉ word) (u : List Char) :
    (word ++ mark :: u).takeWhile (· != mark) = word := by
  have hword : ∀ c ∈ word, (c != mark) = true := fun c hc =>
    bne_iff_ne.mpr fun hmark => h (hmark ▸ hc)
  rw [List.takeWhile_append_of_pos hword]
  simp

/-- Words without the mark are delimited by it. -/
theorem append_mark_inj {mark : Char} (hcode : Function.Injective code)
    (hmark : ∀ a, mark ∉ code a) {a b : α} {u v : List Char} :
    code a ++ mark :: u = code b ++ mark :: v ↔ a = b ∧ u = v := by
  constructor
  · intro h
    have hword : code a = code b := by
      rw [← takeWhile_mark (hmark a) u, h, takeWhile_mark (hmark b) v]
    rw [hword] at h
    exact ⟨hcode hword, (List.cons.inj (List.append_cancel_left h)).2⟩
  · rintro ⟨rfl, rfl⟩
    rfl

/-- A sequence of words is delimited by a mark that begins none of them. -/
theorem SelfDelimiting.sequence {mark : Char} (hcode : SelfDelimiting code)
    (hmark : ∀ a, ∃ c ∈ (code a).head?, c ≠ mark) :
    SelfDelimiting fun as : List α => as.flatMap code ++ [mark] := by
  have begins : ∀ {a : α} {u v : List Char}, code a ++ u ≠ mark :: v := by
    intro a u v h
    obtain ⟨c, hc, hne⟩ := hmark a
    obtain ⟨t, ht⟩ := List.head?_eq_some_iff.mp hc
    rw [ht] at h
    exact hne (List.cons.inj h).1
  intro as
  induction as with
  | nil =>
      intro bs u v h
      cases bs with
      | nil => exact ⟨rfl, (List.cons.inj h).2⟩
      | cons b bs =>
          simp only [List.flatMap_cons, List.append_assoc] at h
          exact absurd h.symm begins
  | cons a as ih =>
      intro bs u v h
      cases bs with
      | nil =>
          simp only [List.flatMap_cons, List.append_assoc] at h
          exact absurd h begins
      | cons b bs =>
          simp only [List.flatMap_cons, List.append_assoc] at h
          obtain ⟨rfl, hrest⟩ := hcode h
          simp only [← List.append_assoc] at hrest
          obtain ⟨rfl, huv⟩ := ih hrest
          exact ⟨rfl, huv⟩

end Codes

/-! ### Digits -/

theorem digitChar_inj {m n : Nat} (hm : m < 16) (hn : n < 16) (h : m.digitChar = n.digitChar) :
    m = n := by
  have distinct : ∀ m < 16, ∀ n < 16, m.digitChar = n.digitChar → m = n := by decide
  exact distinct m hm n hn h

section Digits

variable {b : Nat}

/-- Up to base sixteen a number is determined by its digits. -/
theorem toDigits_injective (hb : 1 < b) (hdigit : b ≤ 16) : Function.Injective (Nat.toDigits b) := by
  intro m
  induction m using Nat.strong_induction_on with
  | _ m ih =>
      intro n h
      -- Equal digits are equally many, so both numbers are single digits or neither is.
      have hsmall : m < b ↔ n < b := by
        rw [← Nat.pow_one b, ← Nat.length_toDigits_le_iff hb Nat.one_pos,
          ← Nat.length_toDigits_le_iff hb Nat.one_pos, h]
      rcases lt_or_ge m b with hm | hm
      · have hn : n < b := hsmall.mp hm
        rw [Nat.toDigits_of_lt_base hm, Nat.toDigits_of_lt_base hn] at h
        exact digitChar_inj (by omega) (by omega) (List.cons.inj h).1
      · have hn : b ≤ n := not_lt.mp fun hn => hm.not_gt (hsmall.mpr hn)
        rw [Nat.toDigits_of_base_le hb hm, Nat.toDigits_of_base_le hb hn] at h
        obtain ⟨hfront, hlast⟩ := List.append_inj' h rfl
        have hdiv : m / b = n / b := ih (m / b) (Nat.div_lt_self (by omega) hb) hfront
        have hmod : m % b = n % b :=
          digitChar_inj (lt_of_lt_of_le (Nat.mod_lt m (by omega)) hdigit)
            (lt_of_lt_of_le (Nat.mod_lt n (by omega)) hdigit) (List.cons.inj hlast).1
        rw [← Nat.div_add_mod m b, ← Nat.div_add_mod n b, hdiv, hmod]

theorem exists_digitChar_of_mem_toDigits (hb : 1 < b) {n : Nat} {c : Char}
    (h : c ∈ Nat.toDigits b n) : ∃ d < b, d.digitChar = c := by
  induction n using Nat.strong_induction_on with
  | _ n ih =>
      rw [Nat.toDigits_eq_if hb] at h
      split at h
      · next hn => exact ⟨n, hn, (List.mem_singleton.mp h).symm⟩
      · next hn =>
          rcases List.mem_append.mp h with hfront | hlast
          · exact ih (n / b) (Nat.div_lt_self (by omega) hb) hfront
          · exact ⟨n % b, Nat.mod_lt n (by omega), (List.mem_singleton.mp hlast).symm⟩

theorem notMem_toDigits (hb : 1 < b) {c : Char} (hc : ∀ d < b, d.digitChar ≠ c) (n : Nat) :
    c ∉ Nat.toDigits b n := by
  intro h
  obtain ⟨d, hd, hchar⟩ := exists_digitChar_of_mem_toDigits hb h
  exact hc d hd hchar

end Digits

/-! ### Escapes -/

/-- The characters that are escaped by a letter, each with its letter. -/
def letters : List (Char × Char) :=
  [('\x00', '0'), ('\t', 't'), ('\n', 'n'), ('\r', 'r'), ('"', '"'), ('\\', '\\')]

/-- How a character may stand in a quoted text. -/
inductive Escaped (c : Char) : List Char → Prop
  | letter {l : Char} : (c, l) ∈ letters → Escaped c ['\\', l]
  | codePoint : Escaped c (escapeCodePoint c)
  | plain : c ≠ '"' → c ≠ '\\' → isUnprintable c = false → Escaped c [c]

theorem escaped_escape (c : Char) : Escaped c (escape c) := by
  unfold escape
  split_ifs with h0 ht hn hr hquote hslash hshown
  · exact .letter (by subst h0; decide)
  · exact .letter (by subst ht; decide)
  · exact .letter (by subst hn; decide)
  · exact .letter (by subst hr; decide)
  · exact .letter (by subst hquote; decide)
  · exact .letter (by subst hslash; decide)
  · exact .codePoint
  · refine .plain hquote hslash ?_
    simp only [Bool.or_eq_true, not_or, Bool.not_eq_true] at hshown
    exact hshown.2

theorem letter_inj {c d l : Char} (hc : (c, l) ∈ letters) (hd : (d, l) ∈ letters) : c = d := by
  have distinct : ∀ p ∈ letters, ∀ q ∈ letters, p.2 = q.2 → p.1 = q.1 := by decide
  exact distinct _ hc _ hd rfl

theorem selfDelimiting_codePoint : SelfDelimiting escapeCodePoint := by
  have hbrace : ∀ n, '\x7d' ∉ Nat.toDigits 16 n :=
    notMem_toDigits (by decide) (by decide)
  have hdigits : Function.Injective (Nat.toDigits 16) := toDigits_injective (by decide) le_rfl
  intro c d u v h
  simp only [escapeCodePoint, List.append_assoc, List.append_cancel_left_eq,
    List.singleton_append, append_mark_inj hdigits hbrace] at h
  exact h.imp_left Char.toNat_inj.mp

/-- Behind a backslash stands a letter other than `u`, or a code point; a plain character
is no backslash. -/
theorem Escaped.inj {c d : Char} {k l u v : List Char} (hc : Escaped c k) (hd : Escaped d l)
    (h : k ++ u = l ++ v) : c = d ∧ u = v := by
  have hmarker : ∀ p ∈ letters, p.2 ≠ 'u' := by decide
  cases hc with
  | letter hc =>
      cases hd with
      | letter hd =>
          simp only [List.cons_append, List.nil_append, List.cons.injEq, true_and] at h
          obtain ⟨rfl, huv⟩ := h
          exact ⟨letter_inj hc hd, huv⟩
      | codePoint =>
          simp only [escapeCodePoint, List.cons_append, List.nil_append, List.cons.injEq] at h
          exact absurd h.2.1 (hmarker _ hc)
      | plain _ hslash => exact absurd (List.cons.inj h).1.symm hslash
  | codePoint =>
      cases hd with
      | letter hd =>
          simp only [escapeCodePoint, List.cons_append, List.nil_append, List.cons.injEq] at h
          exact absurd h.2.1.symm (hmarker _ hd)
      | codePoint => exact selfDelimiting_codePoint h
      | plain _ hslash => exact absurd (List.cons.inj h).1.symm hslash
  | plain _ hslash =>
      cases hd with
      | letter hd => exact absurd (List.cons.inj h).1 hslash
      | codePoint => exact absurd (List.cons.inj h).1 hslash
      | plain => exact List.cons.inj h

theorem Escaped.head_ne_quote {c : Char} {k : List Char} (h : Escaped c k) :
    ∃ d ∈ k.head?, d ≠ '"' := by
  cases h with
  | letter => exact ⟨'\\', rfl, by decide⟩
  | codePoint => exact ⟨'\\', rfl, by decide⟩
  | plain hquote => exact ⟨c, rfl, hquote⟩

theorem selfDelimiting_escape : SelfDelimiting escape :=
  fun c d _ _ h => (escaped_escape c).inj (escaped_escape d) h

theorem selfDelimiting_quoteChars : SelfDelimiting quoteChars := by
  intro cs ds u v h
  have hbody : SelfDelimiting fun cs => List.flatMap escape cs ++ ['"'] :=
    selfDelimiting_escape.sequence fun c => (escaped_escape c).head_ne_quote
  exact hbody (List.cons.inj h).2

/-! ### Printable texts -/

def Printable (cs : List Char) : Prop := ∀ c ∈ cs, isUnprintable c = false

@[simp] theorem printable_append {cs ds : List Char} :
    Printable (cs ++ ds) ↔ Printable cs ∧ Printable ds :=
  List.forall_mem_append

/-- The visible ASCII characters and the space. -/
def isVisible (c : Char) : Bool := 0x20 ≤ c.toNat && c.toNat ≤ 0x7e

theorem printable_of_visible {cs : List Char} (h : cs.all isVisible = true) : Printable cs := by
  intro c hc
  have hvisible : isVisible c = true := List.all_eq_true.mp h c hc
  simp only [isVisible, Bool.and_eq_true, decide_eq_true_eq] at hvisible
  exact isUnprintable_of_visible hvisible

theorem printable_toDigits {b : Nat} (hb : 1 < b) (hdigit : b ≤ 16) (n : Nat) :
    Printable (Nat.toDigits b n) := by
  have visible : ∀ d < 16, isVisible d.digitChar = true := by decide
  refine printable_of_visible (List.all_eq_true.mpr fun c hc => ?_)
  obtain ⟨d, hd, rfl⟩ := exists_digitChar_of_mem_toDigits hb hc
  exact visible d (lt_of_lt_of_le hd hdigit)

theorem Escaped.printable {c : Char} {k : List Char} (h : Escaped c k) : Printable k := by
  cases h with
  | letter hl =>
      have visible : ∀ p ∈ letters, ['\\', p.2].all isVisible = true := by decide
      exact printable_of_visible (visible _ hl)
  | codePoint =>
      unfold escapeCodePoint
      rw [printable_append, printable_append]
      exact ⟨⟨printable_of_visible (by decide), printable_toDigits (by decide) le_rfl _⟩,
        printable_of_visible (by decide)⟩
  | plain _ _ hshown => exact fun d hd => List.mem_singleton.mp hd ▸ hshown

theorem printable_quoteChars (cs : List Char) : Printable (quoteChars cs) := by
  have hquote : Printable ['"'] := printable_of_visible (by decide)
  have hbody : Printable (cs.flatMap escape) := by
    intro d hd
    obtain ⟨c, -, hc⟩ := List.mem_flatMap.mp hd
    exact (escaped_escape c).printable d hc
  exact printable_append.mpr ⟨printable_append.mpr ⟨hquote, hbody⟩, hquote⟩

end Lookahead.Text
