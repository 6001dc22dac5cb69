import TextTables.Condition
import TextTables.Table

/-!
# Evaluating conditions

The meaning of a condition on a row is a recursion on its tree. The evaluator goes through the
tree with an agenda and a stack of results instead, so that long chains of comparisons need no
deep recursion. Both sides of a connective are always looked at, and the leftmost unknown
column is reported.
-/

namespace TextTables

namespace Condition

/-- The condition on one row of the table. -/
def meaning (table : Table) (row : Row) : Condition → Except SchemaError Bool
  | comparison column comparator literal => do
      let index ← table.requireColumn column
      return comparator.holds (row.getD index "") literal
  | combine connective left right => do
      let first ← left.meaning table row
      let second ← right.meaning table row
      return connective.apply first second

/-- What is still to be done: look at a condition, or join the two results on top. -/
inductive Task where
  | visit (condition : Condition)
  | join (connective : Connective)

/-- The number of steps that a task leads to. -/
def Task.cost : Task → Nat
  | visit condition => 2 * condition.size
  | join _ => 1

/-- Works the agenda off, with the results so far, the latest first. -/
def work (table : Table) (row : Row) (agenda : List Task) (results : List Bool) :
    Except SchemaError Bool :=
  match agenda with
  | [] => .ok (results.headD false)
  | .visit (comparison column comparator literal) :: agenda =>
      match table.requireColumn column with
      | .error error => .error error
      | .ok index =>
          work table row agenda (comparator.holds (row.getD index "") literal :: results)
  | .visit (combine connective left right) :: agenda =>
      work table row (.visit left :: .visit right :: .join connective :: agenda) results
  | .join connective :: agenda =>
      let right := results.headD false
      let left := results.tail.headD false
      work table row agenda (connective.apply left right :: results.tail.tail)
termination_by (agenda.map Task.cost).foldr (· + ·) 0
decreasing_by all_goals simp only [List.map_cons, List.foldr_cons, Task.cost, size]; omega

/-- Evaluates the condition on one row of the table. -/
def evaluate (condition : Condition) (table : Table) (row : Row) : Except SchemaError Bool :=
  work table row [.visit condition] []

/-- For each row of the table, whether the condition holds. -/
def mask (condition : Condition) (table : Table) : Except SchemaError (List Bool) :=
  table.rows.mapM (condition.evaluate table)

end Condition

end TextTables
