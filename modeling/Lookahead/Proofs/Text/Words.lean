import Lookahead.Text.Words

/-!
# Words spread over a text

A text spreads words when it writes them one after the other, with blanks around
them and at least one blank between two of them. Every text spreads words, and
it spreads no others than those that `words` reads: `words_eq_iff`.
-/
namespace Lookahead.Text

variable {gap word text : List Char} {ws : List (List Char)}

/-- Blanks, or nothing. -/
def IsGap (gap : List Char) : Prop := ∀ c ∈ gap, isBlank c = true

/-- A run of characters that are not blank, with at least one of them. -/
def IsWord (word : List Char) : Prop := word ≠ [] ∧ ∀ c ∈ word, isBlank c = false

instance (word : List Char) : Decidable (IsWord word) :=
  decidable_of_iff (word ≠ [] ∧ word.all (!isBlank ·) = true) (by simp [IsWord])

/-- The text writes these in their order. What follows one of them is the end of
the text or a blank. -/
inductive Spread : List (List Char) → List Char → Prop
  | gap {gap : List Char} : IsGap gap → Spread [] gap
  | word {gap word text : List Char} {ws : List (List Char)} :
      IsGap gap → (∀ c ∈ text.head?, isBlank c = true) → Spread ws text →
      Spread (word :: ws) (gap ++ (word ++ text))

theorem words_gap_append (hg : IsGap gap) (text : List Char) : words (gap ++ text) = words text := by
  induction gap with
  | nil => rfl
  | cons c gap ih =>
      rw [List.cons_append, words_blank (hg c List.mem_cons_self)]
      exact ih fun d hd => hg d (List.mem_cons_of_mem c hd)

theorem words_word (hw : IsWord word) : words word = [word] := by
  rw [words, List.splitOnP_eq_singleton hw.2]
  simp [hw.1]

theorem words_word_append (hw : IsWord word) (ht : ∀ c ∈ text.head?, isBlank c = true) :
    words (word ++ text) = word :: words text := by
  cases text with
  | nil => rw [List.append_nil, words_word hw, words_nil]
  | cons c text =>
      have hc : isBlank c = true := ht c rfl
      have hsplit : words (word ++ c :: text) = words word ++ words text := by
        unfold words
        rw [List.splitOnP_append_cons word text hc, List.filter_append]
      rw [hsplit, words_word hw, words_blank hc]
      rfl

theorem words_of_spread (hw : ∀ w ∈ ws, IsWord w) (h : Spread ws text) : words text = ws := by
  induction h with
  | gap hg =>
      have hnil := words_gap_append hg []
      rwa [List.append_nil] at hnil
  | word hg ht _ ih =>
      rw [words_gap_append hg, words_word_append (hw _ List.mem_cons_self) ht,
        ih fun w hmem => hw w (List.mem_cons_of_mem _ hmem)]

theorem IsGap.cons {c : Char} (hc : isBlank c = true) (hg : IsGap gap) : IsGap (c :: gap) :=
  List.forall_mem_cons.mpr ⟨hc, hg⟩

theorem Spread.cons_blank {c : Char} (hc : isBlank c = true) (h : Spread ws text) :
    Spread ws (c :: text) := by
  cases h with
  | gap hg => exact .gap (hg.cons hc)
  | word hg ht h => exact .word (hg.cons hc) ht h

/-- A further character in front, which is no blank, begins a word: the first one
of the text when that stands right behind it, and a word of its own otherwise. -/
theorem Spread.exists_cons {c : Char} (hc : isBlank c = false) (hw : ∀ w ∈ ws, IsWord w)
    (h : Spread ws text) : ∃ vs, (∀ w ∈ vs, IsWord w) ∧ Spread vs (c :: text) := by
  have hgap : IsGap [] := by simp [IsGap]
  have hone : IsWord [c] := by simp [IsWord, hc]
  cases h with
  | gap hg =>
      have hblank : ∀ d ∈ text.head?, isBlank d = true :=
        fun d hd => hg d (List.mem_of_mem_head? hd)
      have hs : Spread [[c]] ([] ++ ([c] ++ text)) := .word hgap hblank (.gap hg)
      exact ⟨[[c]], by simpa using hone, hs⟩
  | @word gap word text ws hg ht h =>
      obtain ⟨hword, hws⟩ := List.forall_mem_cons.mp hw
      cases gap with
      | nil =>
          have hlong : IsWord (c :: word) :=
            ⟨List.cons_ne_nil c word, List.forall_mem_cons.mpr ⟨hc, hword.2⟩⟩
          exact ⟨(c :: word) :: ws, List.forall_mem_cons.mpr ⟨hlong, hws⟩, .word hgap ht h⟩
      | cons d gap =>
          have hd : ∀ b ∈ (d :: gap ++ (word ++ text)).head?, isBlank b = true := by
            intro b hb
            cases hb
            exact hg d List.mem_cons_self
          exact ⟨[c] :: word :: ws, List.forall_mem_cons.mpr ⟨hone, hw⟩,
            .word hgap hd (.word hg ht h)⟩

theorem exists_spread (text : List Char) : ∃ ws, (∀ w ∈ ws, IsWord w) ∧ Spread ws text := by
  induction text with
  | nil => exact ⟨[], by simp, .gap (by simp [IsGap])⟩
  | cons c text ih =>
      obtain ⟨ws, hw, h⟩ := ih
      cases hc : isBlank c with
      | true => exact ⟨ws, hw, h.cons_blank hc⟩
      | false => exact h.exists_cons hc hw

/-- The words of a text are the only ones that it spreads. -/
theorem words_eq_iff : words text = ws ↔ (∀ w ∈ ws, IsWord w) ∧ Spread ws text := by
  constructor
  · intro h
    obtain ⟨vs, hv, hs⟩ := exists_spread text
    rw [words_of_spread hv hs] at h
    rw [← h]
    exact ⟨hv, hs⟩
  · intro h
    exact words_of_spread h.1 h.2

end Lookahead.Text
