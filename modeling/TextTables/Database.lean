import TextTables.Table

/-!
# Databases

A database holds tables under keys, which are their names in lower case. The tables are kept
in the order of their keys.
-/

namespace TextTables

open Text

/-- The key under which the table stands in a database. -/
def Table.key (table : Table) : String := lowercase table.name

structure Database where
  name : String
  tables : List Table
deriving DecidableEq

namespace Database

def empty (name : String) : Database := ⟨lowercase name, []⟩

def find? (database : Database) (name : String) : Option Table :=
  database.tables.find? fun table => table.key == lowercase name

def hasTable (database : Database) (name : String) : Bool :=
  (database.find? name).isSome

/-- A new table cannot take the name of another one. -/
def requireFree (database : Database) (name : String) : Except Error Unit :=
  if database.hasTable name then .error (.duplicateTable name) else .ok ()

/-- The table of the given name. -/
def table (database : Database) (name : String) : Except Error Table :=
  match database.find? name with
  | some table => .ok table
  | none => .error (.unknownTable name)

/-- Puts a table before the first one with a greater key. -/
def place (table : Table) : List Table → List Table
  | [] => [table]
  | first :: rest =>
      if table.key < first.key then table :: first :: rest else first :: place table rest

def addTable (database : Database) (table : Table) : Except Error Database :=
  if database.tables.any fun other => other.key == table.key then
    .error (.duplicateTable table.key)
  else .ok { database with tables := place table database.tables }

/-- Takes the table of the given name out of the database. -/
def removeTable (database : Database) (name : String) : Except Error (Table × Database) := do
  let table ← database.table name
  return (table,
    { database with tables := database.tables.filter fun other => other.key != table.key })

/-- Puts the table in the place of the one with the same key. -/
def update (database : Database) (table : Table) : Database :=
  { database with
    tables := database.tables.map fun other => if other.key = table.key then table else other }

def tableNames (database : Database) : List String :=
  database.tables.map Table.name

end Database

end TextTables
