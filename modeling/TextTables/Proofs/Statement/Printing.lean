import TextTables.Proofs.Text.Cells
import TextTables.Proofs.Token.Scanning
import TextTables.Statement.Reader

/-!
# Printing statements

Every statement has a canonical spelling. The words of the language stand in capital letters, and
an operand of a condition stands in parentheses only where the condition would group otherwise.
A statement can be expressed if its names, columns and literals can be spelled, its lists are not
empty where the language asks for an item, and its conditions keep within the limits.
-/

namespace TextTables

open Text

namespace Comparator

def spelling : Comparator → String
  | equal => "=="
  | notEqual => "!="
  | greater => ">"
  | less => "<"
  | greaterOrEqual => ">="
  | lessOrEqual => "<="
  | like => "LIKE"

theorem ofText?_spelling (comparator : Comparator) :
    ofText? comparator.spelling = some comparator := by
  cases comparator <;> decide +kernel

end Comparator

namespace Connective

def keyword : Connective → Keyword
  | and => .and
  | or => .or

theorem ofText?_spelling (connective : Connective) :
    ofText? connective.keyword.spelling = some connective := by
  cases connective <;> decide +kernel

end Connective

theorem Verb.ofText?_spelling (verb : Verb) : ofText? verb.spelling = some verb := by
  cases verb <;> decide +kernel

theorem Keyword.isSpelledBy_spelling (keyword : Keyword) :
    keyword.isSpelledBy keyword.spelling := by
  cases keyword <;> decide +kernel

def Attribute.spelling (reference : Attribute) : String :=
  match reference.table with
  | none => reference.column
  | some table => table ++ "." ++ reference.column

namespace Condition

def isLeaf : Condition → Bool
  | comparison _ _ _ => true
  | combine _ _ _ => false

/-- The tokens of the condition. Operands group to the right without parentheses. -/
def spellings : Condition → List String
  | comparison column comparator literal => [column, comparator.spelling, literal.spelling]
  | combine connective left right =>
      (if left.isLeaf then left.spellings else "(" :: left.spellings ++ [")"]) ++
        connective.keyword.spelling :: right.spellings

/-- How deep the parentheses of the spelling stand in one another. -/
def nesting : Condition → Nat
  | comparison _ _ _ => 0
  | combine _ left right => max (if left.isLeaf then 0 else left.nesting + 1) right.nesting

/-- How deep they stand where the condition is an operand on the left. -/
def operandNesting (condition : Condition) : Nat :=
  if condition.isLeaf then 0 else condition.nesting + 1

theorem nesting_combine (connective : Connective) (left right : Condition) :
    (combine connective left right).nesting = max left.operandNesting right.nesting := rfl

theorem nesting_le_operandNesting (condition : Condition) :
    condition.nesting ≤ condition.operandNesting := by
  cases condition with
  | comparison => exact Nat.le_refl 0
  | combine => exact Nat.le_succ _

theorem terms_combine (connective : Connective) (left right : Condition) :
    (combine connective left right).terms = left.terms + right.terms :=
  List.length_append

end Condition

/-- The tokens of the parts, with commas between them. -/
def listed {Item : Type} (spellings : Item → List String) (items : List Item) : List String :=
  [","].intercalate (items.map spellings)

def Alteration.keyword : Alteration → Keyword
  | add => .add
  | drop => .drop

def Selection.spellings : Selection → List String
  | all => ["*"]
  | only columns => listed (fun column => [column]) columns

namespace Statement

/-- The tokens between the verb and the semicolon. -/
def bodySpellings : Statement → List String
  | use database => [database]
  | createDatabase database => [Keyword.database.spelling, database]
  | createTable table [] => [Keyword.table.spelling, table]
  | createTable table columns =>
      Keyword.table.spelling :: table :: "(" :: listed (fun column => [column]) columns ++ [")"]
  | dropDatabase database => [Keyword.database.spelling, database]
  | dropTable table => [Keyword.table.spelling, table]
  | alter table alteration column =>
      [Keyword.table.spelling, table, alteration.keyword.spelling, column]
  | insert table values =>
      Keyword.into.spelling :: table :: Keyword.values.spelling :: "(" ::
        listed (fun value => [value.spelling]) values ++ [")"]
  | select columns table none => columns.spellings ++ [Keyword.from.spelling, table]
  | select columns table (some condition) =>
      columns.spellings ++
        Keyword.from.spelling :: table :: Keyword.where.spelling :: condition.spellings
  | update table assignments condition =>
      table :: Keyword.set.spelling ::
        listed (fun assignment => [assignment.1, "=", assignment.2.spelling]) assignments ++
          Keyword.where.spelling :: condition.spellings
  | delete table condition =>
      Keyword.from.spelling :: table :: Keyword.where.spelling :: condition.spellings
  | join first second firstAttribute secondAttribute =>
      [first, Keyword.and.spelling, second, Keyword.on.spelling, firstAttribute.spelling,
        Keyword.and.spelling, secondAttribute.spelling]

def spellings (statement : Statement) : List String :=
  statement.verb.spelling :: statement.bodySpellings

/-- The canonical spelling: one space between tokens, and a semicolon at the end. -/
def print (statement : Statement) : String :=
  sentence statement.spellings

end Statement

/-- The literal was made from a spelling that commands can hold. -/
structure Literal.Expressible (literal : Literal) : Prop where
  allowed : isValue literal.spelling
  read : ofToken literal.spelling = .ok literal

structure Attribute.Expressible (reference : Attribute) : Prop where
  table : ∀ table ∈ reference.table, IsName table
  column : isPlain reference.column.toList

/-- Letters and digits, in either case, with a point between the two parts if there are two. -/
structure Attribute.IsWritten (reference : Attribute) : Prop where
  table : ∀ table ∈ reference.table, isPlain table.toList
  column : isPlain reference.column.toList

theorem Attribute.Expressible.isWritten {reference : Attribute}
    (expressible : reference.Expressible) : reference.IsWritten :=
  ⟨fun table named => (expressible.table table named).plain, expressible.column⟩

theorem Attribute.Expressible.of_column {column : String} (plain : isPlain column.toList) :
    Attribute.Expressible ⟨none, column⟩ :=
  ⟨nofun, plain⟩

namespace Condition

/-- The columns and literals of all comparisons can be spelled. -/
def IsWritable : Condition → Prop
  | comparison column _ literal => isPlain column.toList ∧ literal.Expressible
  | combine _ left right => left.IsWritable ∧ right.IsWritable

structure Expressible (condition : Condition) : Prop where
  writable : condition.IsWritable
  terms : condition.terms ≤ maxConditionTerms
  nesting : condition.nesting ≤ maxConditionDepth

end Condition

def Selection.Expressible : Selection → Prop
  | all => True
  | only columns => columns ≠ [] ∧ ∀ column ∈ columns, isPlain column.toList

def Statement.Expressible : Statement → Prop
  | use database => IsName database
  | createDatabase database => IsName database
  | createTable table columns => IsName table ∧ ∀ column ∈ columns, isPlain column.toList
  | dropDatabase database => IsName database
  | dropTable table => IsName table
  | alter table _ column => IsName table ∧ isPlain column.toList
  | insert table values => IsName table ∧ values ≠ [] ∧ ∀ value ∈ values, value.Expressible
  | select columns table condition =>
      columns.Expressible ∧ IsName table ∧ ∀ filter ∈ condition, filter.Expressible
  | update table assignments condition =>
      IsName table ∧ assignments ≠ [] ∧
        (∀ assignment ∈ assignments,
          isPlain assignment.1.toList ∧ assignment.2.Expressible) ∧ condition.Expressible
  | delete table condition => IsName table ∧ condition.Expressible
  | join first second firstAttribute secondAttribute =>
      IsName first ∧ IsName second ∧ firstAttribute.Expressible ∧ secondAttribute.Expressible

example : (Statement.select (.only ["from", "a"]) "t" (some (.combine .or
    (.combine .and (.comparison "and" .equal ⟨"1", .integer⟩)
      (.comparison "b" .like ⟨"'; ,'", .string⟩))
    (.comparison "c" .less ⟨"null", .null⟩)))).print =
      "SELECT from , a FROM t WHERE ( and == 1 AND b LIKE '; ,' ) OR c < null;" := by
  decide +kernel

/-! ### Spelled tokens -/

namespace Text

/-- What is capitalized is a letter. -/
theorem isSolid_of_capital_ne {c : Char} (capitalized : capital c ≠ [c]) : IsSolid c := by
  have solid : ∀ {code : Nat}, c.toNat = code → IsSolid (Char.ofNat code) → IsSolid c := by
    intro code same checked
    rwa [← same, Char.ofNat_toNat] at checked
  unfold capital at capitalized
  split at capitalized
  all_goals try rename_i same; exact solid same (by decide)
  by_cases small : c.isLower
  · exact isSolid_of_isAlphanum (by simp [Char.isAlphanum, Char.isAlpha, small])
  · exact absurd (by rw [Char.toUpper_eq_of_not_isLower small]) capitalized

end Text

/-- The characters of numbers and of words are solid. -/
theorem Kind.isSolid_of_ne_string {text : String} (kind : Kind.of text ≠ .string) {c : Char}
    (member : c ∈ text.toList) : IsSolid c := by
  by_contra special
  refine not_mem_of_ne_string kind ?_ ?_ ?_ member
  · by_contra capitalized
    exact special (isSolid_of_capital_ne capitalized)
  · exact fun plain => special (isSolid_of_isAlphanum plain)
  · intro sign
    simp only [List.mem_cons, List.not_mem_nil, or_false] at sign
    rcases sign with rfl | rfl | rfl <;> exact special (by decide)

open Token

theorem Literal.Expressible.isSpelled {literal : Literal} (expressible : literal.Expressible) :
    IsSpelled literal.spelling.toList := by
  by_cases kind : Kind.of literal.spelling = .string
  · have allowed := expressible.allowed
    simp only [isValue, kind, bne_self_eq_false, Bool.false_or, isStringLiteral,
      Bool.and_eq_true] at allowed
    obtain ⟨body, spelled⟩ := isQuoted_iff.mp allowed.1
    rw [spelled]
    refine .literal fun member => ?_
    have harmless := List.all_eq_true.mp allowed.2 quote (by simpa [spelled] using member)
    exact absurd harmless (by decide)
  · refine .word ?_ fun c member => Kind.isSolid_of_ne_string kind member
    intro empty
    exact kind (by rw [String.toList_eq_nil_iff.mp empty]; decide +kernel)

theorem Attribute.Expressible.isSpelled {reference : Attribute}
    (expressible : reference.Expressible) : IsSpelled reference.spelling.toList := by
  obtain ⟨table, column⟩ := reference
  have plain := expressible.column
  cases table with
  | none => exact .of_isPlain plain
  | some table =>
      have named := expressible.table table rfl
      refine .word (by simp [spelling]) fun c member => ?_
      simp only [spelling, String.toList_append, List.mem_append] at member
      rcases member with (inTable | point) | inColumn
      · exact isSolid_of_isAlphanum (named.isAlphanum inTable)
      · obtain rfl : c = '.' := by simpa using point
        decide
      · exact isSolid_of_isAlphanum ((isPlain_iff.mp plain).2 c inColumn)

theorem isSpelled_keyword (keyword : Keyword) : IsSpelled keyword.spelling.toList :=
  .of_isPlain (by cases keyword <;> decide)

theorem isSpelled_comparator (comparator : Comparator) :
    IsSpelled comparator.spelling.toList := by
  cases comparator with
  | equal => exact .comparator (c := '=') (by decide)
  | notEqual => exact .comparator (c := '!') (by decide)
  | greater => exact .punctuation (c := '>') (by decide)
  | less => exact .punctuation (c := '<') (by decide)
  | greaterOrEqual => exact .comparator (c := '>') (by decide)
  | lessOrEqual => exact .comparator (c := '<') (by decide)
  | like => exact isSpelled_keyword .like

theorem areSpelled_listed {Item : Type} {spellings : Item → List String} {items : List Item}
    (each : ∀ item ∈ items, AreSpelled (spellings item)) : AreSpelled (listed spellings items) := by
  intro spelling member
  rcases mem_intercalate member with rfl | ⟨part, listed, inside⟩
  · exact .punctuation (c := ',') (by decide)
  · obtain ⟨item, original, rfl⟩ := List.mem_map.mp listed
    exact each item original spelling inside

theorem areSpelled_columns {columns : List String}
    (plain : ∀ column ∈ columns, isPlain column.toList) :
    AreSpelled (listed (fun column => [column]) columns) :=
  areSpelled_listed fun column member => .cons (.of_isPlain (plain column member)) .nil

/-- Parentheses around tokens. -/
theorem Token.AreSpelled.enclosed {spellings : List String} (inside : AreSpelled spellings) :
    AreSpelled ("(" :: spellings ++ [")"]) :=
  .append (.cons (.punctuation (c := '(') (by decide)) inside)
    (.cons (.punctuation (c := ')') (by decide)) .nil)

theorem Condition.IsWritable.areSpelled {condition : Condition} (writable : condition.IsWritable) :
    AreSpelled condition.spellings := by
  induction condition with
  | comparison column comparator literal =>
      obtain ⟨plain, expressible⟩ := writable
      exact .cons (.of_isPlain plain)
        (.cons (isSpelled_comparator comparator) (.cons expressible.isSpelled .nil))
  | combine connective left right leftHypothesis rightHypothesis =>
      obtain ⟨leftWritable, rightWritable⟩ := writable
      refine .append ?_ (.cons (isSpelled_keyword _) (rightHypothesis rightWritable))
      split
      · exact leftHypothesis leftWritable
      · exact (leftHypothesis leftWritable).enclosed

theorem Selection.Expressible.areSpelled {columns : Selection}
    (expressible : columns.Expressible) : AreSpelled columns.spellings := by
  cases columns with
  | all =>
      have star : IsSpelled ['*'] := .word (by simp) (List.forall_mem_singleton.mpr (by decide))
      exact .cons star .nil
  | only columns => exact areSpelled_columns expressible.2

namespace Statement

theorem Expressible.areSpelled_body {statement : Statement}
    (expressible : statement.Expressible) : AreSpelled statement.bodySpellings := by
  have keyword := isSpelled_keyword
  cases statement with
  | use database => exact .cons (.of_isPlain expressible.plain) .nil
  | createDatabase database | dropDatabase database | dropTable table =>
      exact .cons (keyword _) (.cons (.of_isPlain (IsName.plain expressible)) .nil)
  | createTable table columns =>
      obtain ⟨named, plain⟩ := expressible
      have table := IsSpelled.of_isPlain named.plain
      cases columns with
      | nil => exact .cons (keyword _) (.cons table .nil)
      | cons column columns =>
          exact .cons (keyword _) (.cons table (areSpelled_columns plain).enclosed)
  | alter table alteration column =>
      obtain ⟨named, plain⟩ := expressible
      exact .cons (keyword _) (.cons (.of_isPlain named.plain)
        (.cons (keyword _) (.cons (.of_isPlain plain) .nil)))
  | insert table values =>
      obtain ⟨named, -, expressible⟩ := expressible
      have values := areSpelled_listed fun value member =>
        AreSpelled.cons (expressible value member).isSpelled .nil
      exact .cons (keyword _) (.cons (.of_isPlain named.plain) (.cons (keyword _) values.enclosed))
  | select columns table condition =>
      obtain ⟨chosen, named, filters⟩ := expressible
      have table := IsSpelled.of_isPlain named.plain
      cases condition with
      | none => exact .append chosen.areSpelled (.cons (keyword _) (.cons table .nil))
      | some condition =>
          exact .append chosen.areSpelled (.cons (keyword _) (.cons table
            (.cons (keyword _) (filters condition rfl).writable.areSpelled)))
  | update table assignments condition =>
      obtain ⟨named, -, expressible, filter⟩ := expressible
      have equals : IsSpelled "=".toList := .punctuation (c := '=') (by decide)
      have assignments := areSpelled_listed fun assignment member =>
        AreSpelled.cons (.of_isPlain (expressible assignment member).1)
          (.cons equals (.cons (expressible assignment member).2.isSpelled .nil))
      exact .cons (.of_isPlain named.plain) (.cons (keyword _)
        (.append assignments (.cons (keyword _) filter.writable.areSpelled)))
  | delete table condition =>
      obtain ⟨named, filter⟩ := expressible
      exact .cons (keyword _) (.cons (.of_isPlain named.plain)
        (.cons (keyword _) filter.writable.areSpelled))
  | join first second firstAttribute secondAttribute =>
      obtain ⟨firstNamed, secondNamed, firstReference, secondReference⟩ := expressible
      exact .cons (.of_isPlain firstNamed.plain) (.cons (keyword _)
        (.cons (.of_isPlain secondNamed.plain) (.cons (keyword _) (.cons firstReference.isSpelled
          (.cons (keyword _) (.cons secondReference.isSpelled .nil))))))

theorem Expressible.scan_print {statement : Statement} (expressible : statement.Expressible) :
    scan statement.print = statement.spellings.map Token.mk ++ [⟨";"⟩] := by
  have verb : IsSpelled statement.verb.spelling.toList :=
    .of_isPlain (by cases statement.verb <;> decide)
  exact scan_sentence (List.cons_ne_nil _ _) (.cons verb expressible.areSpelled_body)

end Statement

end TextTables
