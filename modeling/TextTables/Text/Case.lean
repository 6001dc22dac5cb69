/-!
# Letter case within ASCII

Names compare with the 26 letters of ASCII in either case and every other character exact.
The words of the command language are matched by their capital form in Unicode, which is
wider: `ſet` spells `SET`.
-/

namespace TextTables.Text

/-- Equality of texts, ASCII letters in either case. -/
def sameIgnoringCase (first second : String) : Bool :=
  first.toList.map Char.toLower == second.toList.map Char.toLower

theorem sameIgnoringCase_iff {first second : String} :
    sameIgnoringCase first second ↔
      first.toList.map Char.toLower = second.toList.map Char.toLower := by
  simp [sameIgnoringCase]

@[simp]
theorem sameIgnoringCase_self (text : String) : sameIgnoringCase text text := by
  simp [sameIgnoringCase]

theorem sameIgnoringCase_comm (first second : String) :
    sameIgnoringCase first second = sameIgnoringCase second first := by
  rw [Bool.eq_iff_iff, sameIgnoringCase_iff, sameIgnoringCase_iff, eq_comm]

theorem sameIgnoringCase_trans {first second third : String}
    (left : sameIgnoringCase first second) (right : sameIgnoringCase second third) :
    sameIgnoringCase first third := by
  rw [sameIgnoringCase_iff] at *
  exact left.trans right

/--
The capital form of a character, as far as it stays within ASCII. The characters listed here
are all those whose full Unicode capital form consists of ASCII letters; every other character
is its own capital form or has one with a character outside ASCII, and is kept as it is.
-/
def capital (c : Char) : List Char :=
  match c.toNat with
  | 0x00DF => ['S', 'S']
  | 0x0131 => ['I']
  | 0x017F => ['S']
  | 0xFB00 => ['F', 'F']
  | 0xFB01 => ['F', 'I']
  | 0xFB02 => ['F', 'L']
  | 0xFB03 => ['F', 'F', 'I']
  | 0xFB04 => ['F', 'F', 'L']
  | 0xFB05 => ['S', 'T']
  | 0xFB06 => ['S', 'T']
  | _ => [c.toUpper]

/-- The text, in capital letters, is the given word. -/
def spells (text word : String) : Bool :=
  text.toList.flatMap capital == word.toList

theorem spells_iff {text word : String} :
    spells text word ↔ text.toList.flatMap capital = word.toList := by
  simp [spells]

/-- A text spells at most one word. -/
theorem eq_of_spells {text first second : String}
    (left : spells text first) (right : spells text second) : first = second := by
  rw [spells_iff] at left right
  exact String.toList_inj.mp (left.symm.trans right)

/-- The first of the given words that the text spells. -/
def spelled? {Word : Type} (spelling : Word → String) (words : List Word) (text : String) :
    Option Word :=
  words.find? fun word => spells text (spelling word)

/-- Among words with different spellings, a text finds exactly the word that it spells. -/
theorem spelled?_eq_some_iff {Word : Type} {spelling : Word → String} {words : List Word}
    (complete : ∀ word, word ∈ words)
    (distinct : ∀ first second, spelling first = spelling second → first = second)
    {text : String} {word : Word} :
    spelled? spelling words text = some word ↔ spells text (spelling word) := by
  constructor
  · intro found
    exact List.find?_some (p := fun word => spells text (spelling word)) found
  · intro spelled
    cases found : spelled? spelling words text with
    | none =>
        have missing := List.find?_eq_none.mp found word (complete word)
        exact absurd spelled missing
    | some other =>
        have otherSpelled :=
          List.find?_some (p := fun word => spells text (spelling word)) found
        rw [distinct other word (eq_of_spells otherSpelled spelled)]

end TextTables.Text
