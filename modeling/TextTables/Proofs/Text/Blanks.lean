import Mathlib
import TextTables.Text.Blank

/-!
# Trimming

Trimming takes the blanks from both ends of a text and nothing else, so that a trimmed text does not
end with a blank.
-/

namespace TextTables.Text

variable {text : List Char} {c : Char}

/-- Nothing is cut off a text that no blank begins or ends. -/
theorem trim_eq_self (first : ∀ c ∈ text.head?, ¬ isBlank c)
    (last : ∀ c ∈ text.getLast?, ¬ isBlank c) : trim text = text := by
  have front : ∀ part : List Char, (∀ c ∈ part.head?, ¬ isBlank c) →
      part.dropWhile isBlank = part := by
    intro part solid
    cases part with
    | nil => rfl
    | cons c rest => simp [solid c rfl]
  rw [trim, front text first, front text.reverse (by simpa using last), List.reverse_reverse]

theorem trim_eq_rdropWhile (text : List Char) :
    trim text = (text.dropWhile isBlank).rdropWhile isBlank := rfl

theorem exists_blanks_trim (text : List Char) :
    ∃ front back, (∀ c ∈ front, isBlank c) ∧ (∀ c ∈ back, isBlank c) ∧
      text = front ++ (trim text ++ back) := by
  have split := List.rdropWhile_prefix isBlank (text.dropWhile isBlank)
  refine ⟨text.takeWhile isBlank, (text.dropWhile isBlank).rtakeWhile isBlank,
    fun c => List.mem_takeWhile_imp, fun c => List.mem_rtakeWhile_imp, ?_⟩
  rw [trim_eq_rdropWhile, List.rdropWhile_append_rtakeWhile, List.takeWhile_append_dropWhile]

/-- Blanks in front of a text and behind it are trimmed with its own. -/
theorem trim_blanks {front back : List Char} (before : ∀ c ∈ front, isBlank c)
    (behind : ∀ c ∈ back, isBlank c) : trim (front ++ (text ++ back)) = trim text := by
  have reversed : ∀ c ∈ back.reverse, isBlank c := by simpa using behind
  rw [trim, List.dropWhile_append_of_pos before, List.dropWhile_append]
  split
  · rename_i empty
    rw [trim, List.isEmpty_iff.mp empty, List.dropWhile_eq_nil_iff.mpr behind]
  · rw [List.reverse_append, List.dropWhile_append_of_pos reversed, trim]

theorem not_isBlank_of_getLast?_trim (last : (trim text).getLast? = some c) :
    isBlank c = false := by
  rw [trim, List.getLast?_reverse] at last
  have stops := List.head?_dropWhile_not isBlank (text.dropWhile isBlank).reverse
  rwa [last] at stops

end TextTables.Text
