import TextTables.Database
import TextTables.Disk.Work
import TextTables.TableFile

/-!
# The store

The databases below one directory of the disk. A database is a directory, and a table in it is
a pair of files. A table whose file with the last primary key is missing counts its rows
instead, and the file is written again.
-/

namespace TextTables

/-- Work on the store that can go wrong. What was done to the disk before stays. -/
abbrev StoreM := EStateM Error Disk

namespace StoreM

def ofDisk {α : Type} (work : DiskM α) : StoreM α :=
  EStateM.adaptExcept Error.disk work

end StoreM

structure Store where
  root : Path
deriving DecidableEq

namespace Store

open StoreM (ofDisk)

/-- Opens the store, and makes its directory if it is missing. -/
def openAt (root : Path) : StoreM Store := do
  ofDisk (DiskM.ensureDirectories root)
  return ⟨root⟩

def directory (store : Store) (database : String) : Path :=
  store.root.join database

def tablePath (directory : Path) (table : String) : Path :=
  directory.join (table ++ tableEnding)

def counterPath (directory : Path) (table : String) : Path :=
  directory.join (table ++ counterEnding)

/-- Works on the disk, with an error of its own for a name that is taken. -/
def unlessTaken (work : DiskM Unit) (taken : Error) : StoreM Unit := fun disk =>
  match work disk with
  | .ok _ disk => .ok () disk
  | .error .alreadyExists disk => .error taken disk
  | .error fault disk => .error (.disk fault) disk

def createDatabase (store : Store) (name : String) : StoreM Unit :=
  unlessTaken (DiskM.makeDirectory (store.directory name)) (.duplicateDatabase name)

/-- Removes the directory of a database with everything in it. -/
def dropDatabase (store : Store) (name : String) : StoreM Unit := do
  let directory := store.directory name
  unless (← get).isDirectory directory do throw (.unknownDatabase name)
  ofDisk (DiskM.clearDirectory directory)
  ofDisk (DiskM.removeDirectory directory)

def writeCounter (directory : Path) (table : Table) : StoreM Unit :=
  ofDisk (DiskM.writeText (counterPath directory table.name) table.renderKey)

/-- Writes both files of a table. -/
def saveTable (store : Store) (database : String) (table : Table) : StoreM Unit := do
  let directory := store.directory database
  ofDisk (DiskM.writeText (tablePath directory table.name) table.render)
  writeCounter directory table

/-- Makes the files of a new table. -/
def createTable (store : Store) (database : String) (table : Table) : StoreM Unit := do
  let path := tablePath (store.directory database) table.name
  unlessTaken (DiskM.createFile path) (.duplicateTable table.name)
  store.saveTable database table

/-- Removes the files of a table, of which the one with the last primary key can be missing. -/
def deleteTable (store : Store) (database name : String) : StoreM Unit := do
  let directory := store.directory database
  ofDisk (DiskM.removeFile (tablePath directory name))
  fun disk =>
    match DiskM.removeFile (counterPath directory name) disk with
    | .ok _ disk => .ok () disk
    | .error .notFound disk => .ok () disk
    | .error fault disk => .error (.disk fault) disk

/-- The last primary key that a file holds, or nothing if the file is missing. -/
def readCounter (path : Path) : StoreM (Option Nat) := fun disk =>
  match DiskM.readText path disk with
  | .error .notFound disk => .ok none disk
  | .error fault disk => .error (.disk fault) disk
  | .ok text disk =>
      match Table.parseKey text with
      | .ok key => .ok (some key) disk
      | .error cause => .error (.corruptFile path.text cause) disk

/-- Reads a table from its files, which are named after `stem`. -/
def loadTable (directory : Path) (stem : String) : StoreM Table := do
  let path := tablePath directory stem
  let text ← ofDisk (DiskM.readText path)
  let table ← ofExcept ((Table.parse stem text).mapError (.corruptFile path.text))
  match ← readCounter (counterPath directory stem) with
  | some key => return { table with lastKey := key }
  | none =>
      let healed := { table with lastKey := table.rows.length }
      writeCounter directory healed
      return healed

/-- The name of the table that a file of this name holds, if it is named as such a file. -/
def stem? (file : String) : Option String :=
  if counterEnding.toList.isSuffixOf file.toList then none
  else if tableEnding.toList.isSuffixOf file.toList then
    some (String.ofList (file.toList.take (file.toList.length - tableEnding.toList.length)))
  else none

/-- Reads the table of a directory entry, if it is one, into the database. -/
def loadEntry (directory : Path) (database : Database) (entry : String) : StoreM Database := do
  unless (← get).isFile (directory.join entry) do return database
  match stem? entry with
  | none => return database
  | some stem => ofExcept (database.addTable (← loadTable directory stem))

/-- Reads a database with all its tables. -/
def loadDatabase (store : Store) (name : String) : StoreM Database := do
  let directory := store.directory name
  unless (← get).isDirectory directory do throw (.unknownDatabase name)
  let entries ← ofDisk (DiskM.listDirectory directory)
  entries.foldlM (loadEntry directory) (Database.empty name)

end Store

end TextTables
