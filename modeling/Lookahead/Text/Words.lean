import Lookahead.Text.Blank

/-!
# Words

The words of a text are its maximal runs of characters that are not blank.
-/
namespace Lookahead.Text

def words (text : List Char) : List (List Char) :=
  (text.splitOnP isBlank).filter (· ≠ [])

@[simp] theorem words_nil : words [] = [] := rfl

@[simp] theorem words_blank {c : Char} (h : isBlank c = true) (text : List Char) :
    words (c :: text) = words text := by
  simp [words, List.splitOnP_cons_eq_if_modifyHead, h]

end Lookahead.Text
