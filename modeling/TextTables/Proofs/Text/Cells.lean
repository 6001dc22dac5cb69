import Mathlib
import TextTables.Literal

/-!
# Texts of cells

A cell of a table file can hold any text without tabs, line feeds and carriage returns. What is
not a string is one: its characters are letters, digits, signs and points.
-/

namespace TextTables

open Text

/-- A text that leaves the lines and cells of a table file as they are. -/
structure IsCell (text : String) : Prop where
  tabFree : '\t' ∉ text.toList
  lineFeedFree : '\n' ∉ text.toList
  returnFree : '\r' ∉ text.toList

namespace Text

theorem mem_intercalate {Item : Type} {separator : Item} {texts : List (List Item)} {c : Item}
    (member : c ∈ [separator].intercalate texts) : c = separator ∨ ∃ text ∈ texts, c ∈ text := by
  induction texts with
  | nil => simp at member
  | cons text rest inductionHypothesis =>
      cases rest with
      | nil => exact .inr ⟨text, by simp, by simpa using member⟩
      | cons next others =>
          rw [List.intercalate_cons_cons] at member
          simp only [List.mem_append, List.mem_singleton] at member
          rcases member with (here | between) | later
          · exact .inr ⟨text, List.mem_cons_self, here⟩
          · exact .inl between
          · rcases inductionHypothesis later with between | ⟨other, inside, there⟩
            · exact .inl between
            · exact .inr ⟨other, List.mem_cons_of_mem _ inside, there⟩

/-- Pieces between separators hold none, and nothing that is not in the text. -/
theorem piece_of_mem_splitOn {Item : Type} [DecidableEq Item] {separator : Item}
    {text piece : List Item} (member : piece ∈ text.splitOn separator) :
    separator ∉ piece ∧ piece ⊆ text := by
  induction text generalizing piece with
  | nil =>
      rw [List.splitOn_nil, List.mem_singleton] at member
      simp [member]
  | cons c rest inductionHypothesis =>
      rw [List.splitOn_cons_eq_if_modifyHead] at member
      obtain ⟨first, others, split⟩ := List.exists_cons_of_ne_nil
        (List.splitOn_ne_nil separator rest)
      rw [split] at inductionHypothesis member
      have later : ∀ other ∈ first :: others, separator ∉ other ∧ other ⊆ c :: rest := by
        intro other inside
        obtain ⟨free, below⟩ := inductionHypothesis inside
        exact ⟨free, List.subset_cons_of_subset c below⟩
      split at member
      · rcases List.mem_cons.mp member with rfl | inside
        · simp
        · exact later piece inside
      · rename_i different
        rcases List.mem_cons.mp member with rfl | inside
        · obtain ⟨free, below⟩ := inductionHypothesis (List.mem_cons_self)
          have apart : separator ≠ c := by
            rintro rfl
            simp at different
          exact ⟨by simp [apart, free], List.cons_subset_cons c below⟩
        · exact later piece (List.mem_cons_of_mem _ inside)

/-- The capital forms of a text's characters are in the word that it spells. -/
theorem mem_of_spells {text word : String} (spelled : spells text word) {c form : Char}
    (member : c ∈ text.toList) (capitalized : form ∈ capital c) : form ∈ word.toList := by
  rw [← spells_iff.mp spelled]
  exact List.mem_flatMap.mpr ⟨c, member, capitalized⟩

theorem isCell_of_isAlphanum {text : String} (plain : ∀ c ∈ text.toList, c.isAlphanum) :
    IsCell text := by
  constructor <;> intro member <;> exact absurd (plain _ member) (by decide)

end Text

/-- The characters of a numeral are digits, signs and points. -/
theorem Numeral.char_of_ofText? {text : List Char} (read : ofText? text ≠ none) {c : Char}
    (member : c ∈ text) : c.isDigit ∨ c = '+' ∨ c = '-' ∨ c = '.' := by
  have unsigned : ∀ (negative : Bool) (part : List Char), ofUnsigned? negative part ≠ none →
      c ∈ part → c.isDigit ∨ c = '.' := by
    intro negative part some inside
    have joined : ['.'].intercalate (part.splitOn '.') = part := List.intercalate_splitOn '.'
    rw [← joined] at inside
    rcases mem_intercalate inside with point | ⟨piece, listed, there⟩
    · exact .inr point
    · refine .inl ?_
      have digits : ∀ piece ∈ part.splitOn '.', areDigits piece := by
        unfold ofUnsigned? at some
        split at some
        · rename_i whole split
          simpa [split] using some
        · rename_i whole fraction split
          simpa [split] using some
        · exact absurd rfl some
      have whole := digits piece listed
      simp only [areDigits, Bool.and_eq_true, List.all_eq_true] at whole
      exact whole.2 c there
  unfold ofText? at read
  split at read
  · rcases List.mem_cons.mp member with sign | inside
    · exact .inr (.inr (.inl sign))
    · rcases unsigned _ _ read inside with digit | point
      · exact .inl digit
      · exact .inr (.inr (.inr point))
  · rcases List.mem_cons.mp member with sign | inside
    · exact .inr (.inl sign)
    · rcases unsigned _ _ read inside with digit | point
      · exact .inl digit
      · exact .inr (.inr (.inr point))
  · rcases unsigned _ _ read member with digit | point
    · exact .inl digit
    · exact .inr (.inr (.inr point))

/-- A text that is not a string has no characters but letters, digits, signs and points. -/
theorem Kind.not_mem_of_ne_string {text : String} (kind : Kind.of text ≠ .string) {c : Char}
    (capital : capital c = [c]) (noLetter : ¬ c.isAlphanum) (noSign : c ∉ ['+', '-', '.']) :
    c ∉ text.toList := by
  intro member
  have letters : ∀ word : String, (∀ c ∈ word.toList, c.isAlphanum) → ¬ spells text word := by
    intro word plain spelled
    exact noLetter (plain c (mem_of_spells spelled member (by simp [capital])))
  have noTruth : ¬ Keyword.truth.isSpelledBy text := letters "TRUE" (by simp)
  have noFalsehood : ¬ Keyword.falsehood.isSpelledBy text := letters "FALSE" (by simp)
  have noNull : ¬ Keyword.null.isSpelledBy text := letters "NULL" (by simp)
  have numeral : Numeral.ofText? text.toList ≠ none := by
    intro missing
    exact kind (by simp [Kind.of, noTruth, noFalsehood, noNull, missing])
  rcases Numeral.char_of_ofText? numeral member with digit | sign
  · exact noLetter (by simp [Char.isAlphanum, digit])
  · exact noSign (by simpa using sign)

end TextTables
