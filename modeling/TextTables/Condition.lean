import TextTables.Comparator

/-!
# Conditions

The tree of a condition: comparisons joined by `AND` and `OR`.
-/

namespace TextTables

inductive Connective where
  | and
  | or
deriving DecidableEq

namespace Connective

def ofText? (text : String) : Option Connective :=
  match Keyword.ofText? text with
  | some .and => some .and
  | some .or => some .or
  | _ => none

def apply : Connective → Bool → Bool → Bool
  | and, left, right => left && right
  | or, left, right => left || right

end Connective

inductive Condition where
  | comparison (column : String) (comparator : Comparator) (literal : Literal)
  | combine (connective : Connective) (left right : Condition)
deriving DecidableEq

namespace Condition

/-- The columns that the comparisons name, from left to right. -/
def columns : Condition → List String
  | comparison column _ _ => [column]
  | combine _ left right => left.columns ++ right.columns

/-- The number of nodes of the tree. -/
def size : Condition → Nat
  | comparison _ _ _ => 1
  | combine _ left right => left.size + right.size + 1

/-- The number of comparisons. -/
def terms (condition : Condition) : Nat :=
  condition.columns.length

end Condition

end TextTables
