import TextTables.Database
import TextTables.Name

/-!
# Joins

A join pairs the rows of two tables that agree in one column each. Attributes with a table
bind to it, and the others fill what is left in the order in which they are written.
-/

namespace TextTables

/-- The join columns found so far, and the columns without a table. -/
structure JoinBinding where
  first : Option String
  second : Option String
  bare : List String
deriving DecidableEq

namespace JoinBinding

def empty : JoinBinding := ⟨none, none, []⟩

/-- Binds an attribute. Of two tables of one name the first one is meant. -/
def add (first second : String) (binding : JoinBinding) (reference : Attribute) :
    Except Error JoinBinding :=
  match reference.table with
  | none => .ok { binding with bare := binding.bare ++ [reference.column] }
  | some table =>
      if table = first then .ok { binding with first := some reference.column }
      else if table = second then .ok { binding with second := some reference.column }
      else .error (.unknownTable table)

/-- The column bound to a table, or else the next one without a table. -/
def resolve (bound : Option String) (bare : List String) (table : String) :
    Except Error (String × List String) :=
  match bound, bare with
  | some column, bare => .ok (column, bare)
  | none, column :: bare => .ok (column, bare)
  | none, [] => .error (.unboundJoinAttribute table)

/-- The columns in which the rows of two tables have to agree. -/
def columns (first second : String) (references : List Attribute) :
    Except Error (String × String) := do
  let binding ← references.foldlM (add first second) empty
  let (firstColumn, bare) ← resolve binding.first binding.bare first
  let (secondColumn, _) ← resolve binding.second bare second
  return (firstColumn, secondColumn)

end JoinBinding

namespace Table

/-- All but the first one and the one at the join column. -/
def keep (key : Nat) (cells : List String) : List String :=
  (cells.zipIdx.filter fun cell => cell.2 != 0 && cell.2 != key).map Prod.fst

/-- The columns of the table that go into a join, under the name of the table. -/
def joinedColumns (table : Table) (key : Nat) : List String :=
  (keep key table.columns).map fun column => table.name ++ "." ++ column

/-- The pairs of rows that agree in their join columns. -/
def agreeingPairs (firstKey secondKey : Nat) (firstRows secondRows : List Row) : List (Row × Row) :=
  firstRows.flatMap fun left =>
    (secondRows.filter fun right => left.getD firstKey "" == right.getD secondKey "").map
      fun right => (left, right)

/-- The joined rows, numbered from one. -/
def join (first second : Table) (firstKey secondKey : Nat) : ResultSet where
  columns := primaryKey :: (first.joinedColumns firstKey ++ second.joinedColumns secondKey)
  rows := ((agreeingPairs firstKey secondKey first.rows second.rows).zipIdx 1).map fun pair =>
    toString pair.2 :: (keep firstKey pair.1.1 ++ keep secondKey pair.1.2)

end Table

namespace Database

/-- Joins two tables in the columns that the attributes name. -/
def join (database : Database) (first second : String) (references : List Attribute) :
    Except Error ResultSet := do
  let firstTable ← database.table first
  let secondTable ← database.table second
  let (firstColumn, secondColumn) ← JoinBinding.columns first second references
  let firstKey ← (firstTable.requireColumn firstColumn).mapError .schema
  let secondKey ← (secondTable.requireColumn secondColumn).mapError .schema
  return firstTable.join secondTable firstKey secondKey

end Database

end TextTables
