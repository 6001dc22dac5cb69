import TextTables.Proofs.Statement.Spelling

/-!
# What statements put into files

Table files have no way to write a separator within a cell. None is needed, as a statement that was
read from a text has separators in none of its literals and columns. Its databases and tables are
named by small letters and digits, which lead out of no directory and are taken for no ending.
-/

namespace TextTables

open Text

/-- A text that separates neither cells nor lines, and that ends no literal. -/
structure IsHarmless (text : String) : Prop extends IsCell text where
  quoteFree : quote ∉ text.toList

/-- A name that is one part of a path, with nothing in it to tell the files of a table apart. -/
structure IsFileStem (name : String) : Prop where
  nonempty : name ≠ ""
  letters : ∀ c ∈ name.toList, c.isLower ∨ c.isDigit
  slashFree : '/' ∉ name.toList
  pointFree : '.' ∉ name.toList
  noCounter : ¬ "_config".toList <:+ name.toList

/-- The columns that the selection names. -/
def Selection.columns : Selection → List String
  | all => []
  | only names => names

namespace Statement

/-- The columns that the statement makes or uses. -/
def columns : Statement → List String
  | createTable _ columns => columns
  | alter _ _ column => [column]
  | select selection _ condition =>
      selection.columns ++ condition.toList.flatMap Condition.columns
  | update _ assignments condition => assignments.map Prod.fst ++ condition.columns
  | delete _ condition => condition.columns
  | join _ _ firstAttribute secondAttribute => [firstAttribute.column, secondAttribute.column]
  | use _ | createDatabase _ | dropDatabase _ | dropTable _ | insert _ _ => []

/-- The databases and tables that the statement names. -/
def names : Statement → List String
  | use database | createDatabase database | dropDatabase database => [database]
  | createTable table _ | dropTable table | alter table _ _ | insert table _ | select _ table _
  | update table _ _ | delete table _ => [table]
  | join first second firstAttribute secondAttribute =>
      [first, second] ++ (firstAttribute.table.toList ++ secondAttribute.table.toList)

end Statement

variable {name column : String} {literal : Literal} {condition : Condition} {statement : Statement}

/-! ## Literals, columns and names -/

theorem Literal.Expressible.isHarmless (expressible : literal.Expressible) :
    IsHarmless literal.text where
  toIsCell := expressible.isCell_text
  quoteFree := expressible.not_mem_text (by decide) (by decide)

theorem isHarmless_of_isPlain (plain : isPlain column.toList) :
    column ≠ "" ∧ IsHarmless column := by
  obtain ⟨nonempty, letters⟩ := isPlain_iff.mp plain
  refine ⟨?_, isCell_of_isAlphanum letters, fun member => absurd (letters _ member) (by decide)⟩
  rintro rfl
  exact nonempty rfl

/-- Lower case leaves no capitals. -/
theorem IsName.isLower_or_isDigit (named : IsName name) {c : Char} (member : c ∈ name.toList) :
    c.isLower ∨ c.isDigit := by
  rw [← named.lower, toList_lowercase named.plain] at member
  obtain ⟨original, inside, rfl⟩ := List.mem_map.mp member
  have letter := named.isAlphanum inside
  exact ascii_induction (fun c => c.isAlphanum → c.toLower.isLower ∨ c.toLower.isDigit)
    (by decide +kernel) (lt_of_isAlphanum letter) letter

theorem IsName.isFileStem (named : IsName name) : IsFileStem name where
  nonempty := by
    rintro rfl
    exact named.toList_ne_nil rfl
  letters := fun _ => named.isLower_or_isDigit
  slashFree := fun member => absurd (named.isAlphanum member) (by decide)
  pointFree := fun member => absurd (named.isAlphanum member) (by decide)
  noCounter := by
    intro ends
    have inside : '_' ∈ name.toList := ends.subset (by decide)
    exact absurd (named.isAlphanum inside) (by decide)

/-! ## Statements -/

namespace Condition.IsWritable

theorem of_mem_literals (writable : condition.IsWritable) :
    ∀ literal ∈ condition.literals, literal.Expressible := by
  induction condition with
  | comparison column comparator literal => exact List.forall_mem_singleton.mpr writable.2
  | combine connective left right leftHypothesis rightHypothesis =>
      exact List.forall_mem_append.mpr ⟨leftHypothesis writable.1, rightHypothesis writable.2⟩

theorem of_mem_columns (writable : condition.IsWritable) :
    ∀ column ∈ condition.columns, isPlain column.toList := by
  induction condition with
  | comparison column comparator literal => exact List.forall_mem_singleton.mpr writable.1
  | combine connective left right leftHypothesis rightHypothesis =>
      exact List.forall_mem_append.mpr ⟨leftHypothesis writable.1, rightHypothesis writable.2⟩

end Condition.IsWritable

namespace Statement.Expressible

theorem of_mem_literals (expressible : statement.Expressible) :
    ∀ literal ∈ statement.literals, literal.Expressible := by
  cases statement with
  | insert table values => exact expressible.2.2
  | select selection table condition =>
      intro literal member
      obtain ⟨filter, given, inside⟩ := List.mem_flatMap.mp member
      have fits := expressible.2.2 filter (Option.mem_toList.mp given)
      exact fits.writable.of_mem_literals literal inside
  | update table assignments condition =>
      obtain ⟨-, -, changes, fits⟩ := expressible
      exact List.forall_mem_append.mpr ⟨List.forall_mem_map.mpr fun change member =>
        (changes change member).2, fits.writable.of_mem_literals⟩
  | delete table condition => exact expressible.2.writable.of_mem_literals
  | _ => exact fun literal member => absurd member List.not_mem_nil

theorem of_mem_columns (expressible : statement.Expressible) :
    ∀ column ∈ statement.columns, isPlain column.toList := by
  cases statement with
  | createTable table columns => exact expressible.2
  | alter table alteration column => exact List.forall_mem_singleton.mpr expressible.2
  | select selection table condition =>
      refine List.forall_mem_append.mpr ⟨?_, fun column member => ?_⟩
      · cases selection with
        | all => exact fun column member => absurd member List.not_mem_nil
        | only names => exact expressible.1.2
      · obtain ⟨filter, given, inside⟩ := List.mem_flatMap.mp member
        have fits := expressible.2.2 filter (Option.mem_toList.mp given)
        exact fits.writable.of_mem_columns column inside
  | update table assignments condition =>
      obtain ⟨-, -, changes, fits⟩ := expressible
      exact List.forall_mem_append.mpr ⟨List.forall_mem_map.mpr fun change member =>
        (changes change member).1, fits.writable.of_mem_columns⟩
  | delete table condition => exact expressible.2.writable.of_mem_columns
  | join first second firstAttribute secondAttribute =>
      obtain ⟨-, -, left, right⟩ := expressible
      exact List.forall_mem_cons.mpr ⟨left.column, List.forall_mem_singleton.mpr right.column⟩
  | _ => exact fun column member => absurd member List.not_mem_nil

theorem of_mem_names (expressible : statement.Expressible) :
    ∀ name ∈ statement.names, IsName name := by
  cases statement with
  | use | createDatabase | dropDatabase | dropTable =>
      exact List.forall_mem_singleton.mpr expressible
  | createTable | alter | insert | update | delete =>
      exact List.forall_mem_singleton.mpr expressible.1
  | select => exact List.forall_mem_singleton.mpr expressible.2.1
  | join first second firstAttribute secondAttribute =>
      obtain ⟨firstNamed, secondNamed, left, right⟩ := expressible
      have tables : ∀ name ∈ [first, second], IsName name :=
        List.forall_mem_cons.mpr ⟨firstNamed, List.forall_mem_singleton.mpr secondNamed⟩
      exact List.forall_mem_append.mpr ⟨tables, List.forall_mem_append.mpr
        ⟨fun name given => left.table name (Option.mem_toList.mp given),
          fun name given => right.table name (Option.mem_toList.mp given)⟩⟩

end Statement.Expressible

/-- Whatever a statement puts into files or into their paths was read without a separator. -/
theorem Statement.isHarmless_of_parse {text : String} {statement : Statement}
    (read : parse text = .ok statement) :
    (∀ literal ∈ statement.literals, IsHarmless literal.text) ∧
      (∀ column ∈ statement.columns, column ≠ "" ∧ IsHarmless column) ∧
      ∀ name ∈ statement.names, IsFileStem name := by
  have expressible := expressible_of_parse read
  exact ⟨fun literal member => (expressible.of_mem_literals literal member).isHarmless,
    fun column member => isHarmless_of_isPlain (expressible.of_mem_columns column member),
    fun name member => (expressible.of_mem_names name member).isFileStem⟩

/-- The literals of this command look like paths and like endings of files. -/
theorem Statement.isHarmless_of_parse_update :
    ∃ statement, parse "UPDATE Pages SET Path = '../x_config', size = +7.5 WHERE id == '\\t';" =
        .ok statement ∧
      statement.literals.map Literal.text = ["../x_config", "+7.5", "\\t"] ∧
      statement.columns = ["Path", "size", "id"] ∧ statement.names = ["pages"] ∧
      (∀ literal ∈ statement.literals, IsHarmless literal.text) ∧
      (∀ column ∈ statement.columns, column ≠ "" ∧ IsHarmless column) ∧
      ∀ name ∈ statement.names, IsFileStem name := by
  let assigned : List (String × Literal) :=
    [("Path", ⟨"'../x_config'", .string⟩), ("size", ⟨"+7.5", .float⟩)]
  have read : parse "UPDATE Pages SET Path = '../x_config', size = +7.5 WHERE id == '\\t';" =
      .ok (.update "pages" assigned (.comparison "id" .equal ⟨"'\\t'", .string⟩)) := by
    decide +kernel
  exact ⟨_, read, by decide, rfl, rfl, isHarmless_of_parse read⟩

end TextTables
