import TextTables.Join
import TextTables.Statement.Reader
import TextTables.Store
import TextTables.Table.Change

/-!
# Sessions

A session works on one store and has selected at most one database, of which it holds the
tables. Statements change the selected database and the disk in place, step by step, and what
was changed before a step that fails stays. A statement that changes a table first makes the
changed table, then writes its files, and only then takes it over.
-/

namespace TextTables

/-- What a command that succeeds answers. -/
inductive Answer where
  | done
  | table (result : ResultSet)
deriving DecidableEq

/-- What the user is told: the answer, or what failed and why. -/
inductive Response where
  | answered (answer : Answer)
  | failed (activity : String) (error : Error)
deriving DecidableEq

def Response.render : Response → String
  | answered .done => "[OK]"
  | answered (.table result) => "[OK]:\n" ++ result.render
  | failed activity error => "[ERROR]: " ++ activity ++ ": " ++ error.message

/-- What fails when the statement fails. -/
def Statement.activity : Statement → String
  | use _ => "Failed using database"
  | createDatabase _ => "Failed creating database"
  | createTable _ _ => "Failed creating table"
  | dropDatabase _ => "Failed dropping database"
  | dropTable _ => "Failed dropping table"
  | alter _ _ _ => "Failed altering table"
  | insert _ _ => "Failed inserting into table"
  | select _ _ _ => "Failed getting data from table"
  | update _ _ _ => "Failed updating table"
  | delete _ _ => "Failed deleting from table"
  | join _ _ _ _ => "Failed joining tables"

/-- The table with the column added or dropped. -/
def Alteration.apply (alteration : Alteration) (column : String) (table : Table) :
    Except SchemaError Table :=
  match alteration with
  | .add => table.addColumn column
  | .drop => table.dropColumn column

/-- What statements change: the selected database and the disk. -/
structure Workspace where
  /-- The selected database. -/
  current : Option Database
  disk : Disk
deriving DecidableEq

/-- Work of a session that can go wrong. What was changed before stays, in memory as on the disk. -/
abbrev SessionM := EStateM Error Workspace

namespace SessionM

/-- Work on the disk, which leaves the selected database alone. -/
def onDisk {α : Type} (work : StoreM α) : SessionM α := fun space =>
  match work space.disk with
  | .ok result disk => .ok result { space with disk := disk }
  | .error error disk => .error error { space with disk := disk }

def selected : SessionM Database := do
  match (← get).current with
  | some database => return database
  | none => throw .noDatabaseSelected

/-- Takes a database over as the selected one. -/
def select (database : Database) : SessionM Unit :=
  modify fun space => { space with current := some database }

/-- Deselects the database if it has the given name. -/
def deselect (name : String) : SessionM Unit :=
  modify fun space =>
    match space.current with
    | some database => if database.name = name then { space with current := none } else space
    | none => space

end SessionM

structure Session where
  store : Store
  /-- The selected database. -/
  current : Option Database
deriving DecidableEq

namespace Session

open SessionM (onDisk selected)

/-- Opens a session on a directory, with no database selected. -/
def openAt (root : Path) : StoreM Session := do
  return ⟨← Store.openAt root, none⟩

/-- Names cannot be words of the language. -/
def checkName (name : String) : Except Error Unit :=
  if isReserved name then .error (.schema (.reservedWord name)) else .ok ()

/-- Changes a table of the selected database, on the disk first. -/
def changeTable (store : Store) (name : String) (change : Table → Except SchemaError Table) :
    SessionM Unit := do
  let database ← selected
  let table ← ofExcept (database.table name)
  let changed ← ofExcept ((change table).mapError .schema)
  onDisk (store.saveTable database.name changed)
  SessionM.select (database.update changed)

def createTable (store : Store) (name : String) (columns : List String) : SessionM Unit := do
  let database ← selected
  ofExcept (database.requireFree name)
  let table ← ofExcept ((Table.withColumns name columns).mapError .schema)
  onDisk (store.createTable database.name table)
  SessionM.select (← ofExcept (database.addTable table))

def dropTable (store : Store) (name : String) : SessionM Unit := do
  let database ← selected
  let _ ← ofExcept (database.table name)
  onDisk (store.deleteTable database.name name)
  let (_, remaining) ← ofExcept (database.removeTable name)
  SessionM.select remaining

/-- The rows that a query answers. -/
def query (name : String) (columns : Selection) (condition : Option Condition) :
    SessionM ResultSet := do
  let database ← selected
  let table ← ofExcept (database.table name)
  let names := match columns with
    | .all => none
    | .only names => some names
  ofExcept ((table.select names condition).mapError .schema)

/-- Carries out a statement on a store. -/
def perform (store : Store) : Statement → SessionM Answer
  | .use name => do
      ofExcept (checkName name)
      SessionM.select (← onDisk (store.loadDatabase name))
      return .done
  | .createDatabase name => do
      ofExcept (checkName name)
      onDisk (store.createDatabase name)
      return .done
  | .dropDatabase name => do
      ofExcept (checkName name)
      onDisk (store.dropDatabase name)
      SessionM.deselect name
      return .done
  | .createTable name columns => do
      ofExcept (checkName name)
      createTable store name columns
      return .done
  | .dropTable name => do
      ofExcept (checkName name)
      dropTable store name
      return .done
  | .alter name change column => do
      ofExcept (checkName name)
      changeTable store name (change.apply column)
      return .done
  | .insert name values => do
      ofExcept (checkName name)
      changeTable store name fun table => table.insert (values.map Literal.text)
      return .done
  | .update name assignments condition => do
      ofExcept (checkName name)
      changeTable store name fun table => table.update assignments condition
      return .done
  | .delete name condition => do
      ofExcept (checkName name)
      changeTable store name fun table => table.delete condition
      return .done
  | .select columns name condition => do
      ofExcept (checkName name)
      return .table (← query name columns condition)
  | .join first second firstAttribute secondAttribute => do
      ofExcept (checkName first)
      ofExcept (checkName second)
      let database ← selected
      return .table (← ofExcept (database.join first second [firstAttribute, secondAttribute]))

/-- Runs a statement. The session it answers with takes the place of this one. -/
def run (session : Session) (statement : Statement) : StoreM (Answer × Session) := fun disk =>
  match perform session.store statement ⟨session.current, disk⟩ with
  | .ok answer space => .ok (answer, { session with current := space.current }) space.disk
  | .error error space => .error error space.disk

/-- Reads a command and runs it. The session goes on with what the command left in memory. -/
def execute (session : Session) (command : String) (disk : Disk) : Response × Session × Disk :=
  match Statement.parse command with
  | .error error => (.failed "Invalid query" error, session, disk)
  | .ok statement =>
      match perform session.store statement ⟨session.current, disk⟩ with
      | .ok answer space =>
          (.answered answer, { session with current := space.current }, space.disk)
      | .error error space =>
          (.failed statement.activity error, { session with current := space.current },
            space.disk)

end Session

end TextTables
