import TextTables.Error
import TextTables.ResultSet
import TextTables.Text.Lowercase

/-!
# Tables

A table has a header and rows, and counts the primary keys that it has given out. Every
operation either answers with the changed table or refuses and changes nothing. Columns are
found by their names with ASCII letters in either case.
-/

namespace TextTables

open Text

/-- The name of the column that holds the primary key. -/
def primaryKey : String := "id"

/-- The cell that fills a new column. -/
def nullCell : String := "NULL"

structure Table where
  name : String
  columns : List String
  rows : List Row
  /-- The last primary key that was given out. It never falls, so that no key comes back. -/
  lastKey : Nat
deriving DecidableEq

namespace Table

/-- A table without columns, to which a header can be added. -/
def bare (name : String) (lastKey : Nat) : Table :=
  ⟨lowercase name, [], [], lastKey⟩

def columnIndex? (table : Table) (name : String) : Option Nat :=
  table.columns.findIdx? fun column => sameIgnoringCase column name

def requireColumn (table : Table) (name : String) : Except SchemaError Nat :=
  match table.columnIndex? name with
  | some index => .ok index
  | none => .error (.unknownColumn name)

/-- Adds a column at the end and fills it in every row. -/
def addColumn (table : Table) (name : String) : Except SchemaError Table :=
  if isReserved name then .error (.reservedWord name)
  else if (table.columnIndex? name).isSome then .error (.duplicateColumn name)
  else
    .ok { table with
      columns := table.columns ++ [name]
      rows := table.rows.map fun row => row ++ [nullCell] }

def addColumns (table : Table) (names : List String) : Except SchemaError Table :=
  names.foldlM addColumn table

/-- An empty table with a primary key and the given columns. -/
def withColumns (name : String) (columns : List String) : Except SchemaError Table :=
  (bare name 0).addColumns (primaryKey :: columns)

/-- Removes a column and its cell in every row. The primary key stays. -/
def dropColumn (table : Table) (name : String) : Except SchemaError Table :=
  if sameIgnoringCase name primaryKey then .error .primaryKeyNotWritable
  else
    match table.columnIndex? name with
    | none => .error (.unknownColumn name)
    | some index =>
        .ok { table with
          columns := table.columns.eraseIdx index
          rows := table.rows.map fun row => row.eraseIdx index }

/-- A row needs one cell for each column. -/
def checkWidth (table : Table) (width : Nat) : Except SchemaError Unit :=
  if table.columns.length < width then .error (.tooManyValues table.name)
  else if width < table.columns.length then .error (.tooFewValues table.name)
  else .ok ()

/-- Appends a row that brings its own key. -/
def addRow (table : Table) (row : Row) : Except SchemaError Table := do
  table.checkWidth row.length
  return { table with rows := table.rows ++ [row] }

/-- Appends a row under the next primary key. -/
def insert (table : Table) (cells : Row) : Except SchemaError Table := do
  table.checkWidth (cells.length + 1)
  let key := table.lastKey + 1
  return { table with rows := table.rows ++ [toString key :: cells], lastKey := key }

/-- Puts other rows in the place of all rows. -/
def replaceRows (table : Table) (rows : List Row) : Except SchemaError Table := do
  rows.forM fun row => table.checkWidth row.length
  return { table with rows := rows }

/-- The column as the header spells it. -/
def declared (table : Table) (name : String) : Except SchemaError String := do
  let column := table.columns.getD (← table.requireColumn name) ""
  if isReserved column then .error (.reservedWord column)
  else return column

/-- The rows that the mask marks, or all rows without a mask. Rows past its end are not marked. -/
def marked (mask : Option (List Bool)) (rows : List Row) : List Row :=
  match mask with
  | none => rows
  | some mask => ((rows.zip mask).filter Prod.snd).map Prod.fst

/-- The given cells of a row, in the given order. -/
def pick (indexes : List Nat) (row : Row) : Row :=
  indexes.map fun index => row.getD index ""

/-- The given columns of the marked rows. -/
def project (table : Table) (names : List String) (mask : Option (List Bool)) :
    Except SchemaError ResultSet := do
  let columns ← names.mapM table.declared
  let indexes ← columns.mapM table.requireColumn
  return ⟨columns, (marked mask table.rows).map (pick indexes)⟩

theorem requireColumn_eq_ok_iff {table : Table} {name : String} {index : Nat} :
    table.requireColumn name = .ok index ↔ table.columnIndex? name = some index := by
  unfold requireColumn
  cases table.columnIndex? name <;> simp

theorem columnIndex?_lt {table : Table} {name : String} {index : Nat}
    (found : table.columnIndex? name = some index) : index < table.columns.length := by
  obtain ⟨bound, _⟩ := List.findIdx?_eq_some_iff_getElem.mp found
  exact bound

end Table

end TextTables
