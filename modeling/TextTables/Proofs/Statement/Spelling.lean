import TextTables.Proofs.Statement.Expressing

/-!
# What statements can hold

A statement that was read from a text names databases and tables in lower case, makes columns of
letters and digits, and puts only texts into cells that table files can hold.
-/

namespace TextTables

open Text

namespace Statement

/-- The names and cells of the statement are as a text can spell them. -/
def WellSpelled : Statement → Prop
  | use name => IsName name
  | createDatabase name => IsName name
  | createTable name columns => IsName name ∧ ∀ column ∈ columns, isPlain column.toList
  | dropDatabase name => IsName name
  | dropTable name => IsName name
  | alter name _ column => IsName name ∧ isPlain column.toList
  | insert name values => IsName name ∧ ∀ value ∈ values, IsCell value.text
  | select _ name _ => IsName name
  | update name assignments _ => IsName name ∧ ∀ assignment ∈ assignments, IsCell assignment.2.text
  | delete name _ => IsName name
  | join first second _ _ => IsName first ∧ IsName second

end Statement

/-- A character that string literals refuse is in the text of no literal: words and numerals, in any
spelling, have no such characters. -/
theorem Literal.Expressible.not_mem_text {literal : Literal} (expressible : literal.Expressible)
    {c : Char} (refused : isLiteralChar c = false) (unchanged : capital c = [c]) :
    c ∉ literal.text.toList := by
  have kind := (kind_eq_of_ofToken expressible.read).1
  by_cases string : Kind.of literal.spelling = .string
  · have inner : ((literal.spelling.toList.drop 1).dropLast).all isLiteralChar := by
      have allowed := expressible.allowed
      simp only [isValue, string, bne_self_eq_false, Bool.false_or, isStringLiteral,
        Bool.and_eq_true] at allowed
      exact allowed.2
    rw [text, if_pos (kind.trans string), String.toList_ofList]
    intro member
    rw [List.all_eq_true.mp inner c member] at refused
    cases refused
  · simp only [isLiteralChar, Bool.or_eq_false_iff, decide_eq_false_iff_not] at refused
    obtain ⟨⟨-, noLetter⟩, noSymbol⟩ := refused
    have noSign : c ∉ ['+', '-', '.'] := fun sign =>
      noSymbol ((by decide : ['+', '-', '.'] ⊆ literalSymbols) sign)
    rw [text, if_neg (by rwa [kind])]
    exact Kind.not_mem_of_ne_string string unchanged (by simpa using noLetter) noSign

/-- The text of a value is a cell, as string literals refuse separators. -/
theorem Literal.Expressible.isCell_text {literal : Literal} (expressible : literal.Expressible) :
    IsCell literal.text where
  tabFree := expressible.not_mem_text (by decide) (by decide)
  lineFeedFree := expressible.not_mem_text (by decide) (by decide)
  returnFree := expressible.not_mem_text (by decide) (by decide)

/-- What can be expressed has proper names and cells. -/
theorem Statement.Expressible.wellSpelled {statement : Statement}
    (expressible : statement.Expressible) : statement.WellSpelled := by
  cases statement with
  | use | createDatabase | dropDatabase | dropTable => exact expressible
  | createTable | alter => exact expressible
  | insert table values =>
      exact ⟨expressible.1, fun value member => (expressible.2.2 value member).isCell_text⟩
  | select columns table condition => exact expressible.2.1
  | update table assignments condition =>
      exact ⟨expressible.1, fun assignment member =>
        (expressible.2.2.1 assignment member).2.isCell_text⟩
  | delete table condition => exact expressible.1
  | join first second firstAttribute secondAttribute => exact ⟨expressible.1, expressible.2.1⟩

/-- Every text that is read gives a statement with proper names and cells. -/
theorem Statement.wellSpelled_of_parse {text : String} {statement : Statement}
    (read : parse text = .ok statement) : statement.WellSpelled :=
  (expressible_of_parse read).wellSpelled

end TextTables
