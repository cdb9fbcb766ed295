import Mathlib.Data.List.TakeWhile
import SyntaxTally.Text.Blank

/-!
# Blanks and line ends

A text is blank exactly if its trimmed form is empty, and it stays so when its line ends become line feeds.
-/
namespace SyntaxTally.Text

variable {text : List Char}

theorem newlines_cons {c : Char} (plain : c ≠ '\r') (rest : List Char) :
    newlines (c :: rest) = c :: newlines rest := by
  rw [newlines]
  · intro _ first
    exact absurd first plain
  · intro first
    exact absurd first plain

theorem newlines_newline (rest : List Char) : newlines ('\n' :: rest) = '\n' :: newlines rest :=
  newlines_cons (by decide) rest

theorem strip_eq_nil_iff : strip text = [] ↔ ∀ c ∈ text, isSpace c = true := by
  rw [strip, trim, List.reverse_eq_nil_iff, List.dropWhile_eq_nil_iff]
  simp only [List.mem_reverse]
  constructor
  · intro blank
    by_cases none : text.dropWhile isSpace = []
    · exact List.dropWhile_eq_nil_iff.mp none
    · have first := List.head_dropWhile_not isSpace none
      rw [blank _ (List.head_mem none)] at first
      cases first
  · intro blank c member
    exact blank c ((List.dropWhile_sublist _).subset member)

theorem isSpace_newlines : (∀ c ∈ newlines text, isSpace c = true) ↔ ∀ c ∈ text, isSpace c = true := by
  have feed : isSpace '\n' = true := by decide
  have carriage : isSpace '\r' = true := by decide
  fun_induction newlines text with
  | case1 => rfl
  | case2 text ih => simp [ih, feed, carriage]
  | case3 text _ ih => simp [ih, feed, carriage]
  | case4 c text _ _ ih => simp [ih]

end SyntaxTally.Text
