import TextTables.Condition.Evaluation

/-!
# Queries and changes by condition

What a selection, an update and a deletion make of one table. The condition is evaluated on
all rows before any row is changed.
-/

namespace TextTables

open Text

namespace Table

/-- The rows that the mask does not mark. -/
def unmarked (mask : List Bool) (rows : List Row) : List Row :=
  ((rows.zip mask).filter fun marked => !marked.2).map Prod.fst

/-- The chosen columns, by name. -/
def chosen (table : Table) : Option (List String) → List String
  | none => table.columns
  | some names => names

/-- The given columns, or all of them, of the rows on which the condition holds. -/
def select (table : Table) (names : Option (List String)) (condition : Option Condition) :
    Except SchemaError ResultSet :=
  match condition with
  | none => table.project (table.chosen names) none
  | some condition => do
      let mask ← condition.mask table
      table.project (table.chosen names) (some mask)

/-- The place of an assigned column and the text to put there. -/
def target (table : Table) (assignment : String × Literal) : Except SchemaError (Nat × String) :=
  let (column, literal) := assignment
  if sameIgnoringCase column primaryKey then .error .primaryKeyNotWritable
  else if isReserved column then .error (.reservedWord column)
  else do return (← table.requireColumn column, literal.text)

/-- Puts the texts into their places, one after the other. -/
def assignCells (targets : List (Nat × String)) (row : Row) : Row :=
  targets.foldl (fun row target => row.set target.1 target.2) row

/-- Assigns the literals in the rows on which the condition holds. -/
def update (table : Table) (assignments : List (String × Literal)) (condition : Condition) :
    Except SchemaError Table := do
  let targets ← assignments.mapM table.target
  let mask ← condition.mask table
  table.replaceRows ((table.rows.zip mask).map fun marked =>
    if marked.2 then assignCells targets marked.1 else marked.1)

/-- Removes the rows on which the condition holds. -/
def delete (table : Table) (condition : Condition) : Except SchemaError Table := do
  let mask ← condition.mask table
  table.replaceRows (unmarked mask table.rows)

end Table

end TextTables
