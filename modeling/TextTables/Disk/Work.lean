import TextTables.Disk

/-!
# Work on the disk

The operations that take paths. Each one does its work or reports why it cannot; one that
fails changes nothing, except that directories made on the way to another one stay.
-/

namespace TextTables

/-- Work on the disk that can meet a fault. -/
abbrev DiskM := EStateM Fault Disk

namespace DiskM

def locate (path : Path) : DiskM Location := fun disk =>
  match disk.locate path with
  | .ok place => .ok place disk
  | .error fault => .error fault disk

def locateNew (path : Path) : DiskM Location := fun disk =>
  match disk.locateNew path with
  | .ok place => .ok place disk
  | .error fault => .error fault disk

def node? (place : Location) : DiskM (Option Node) := do
  return (← get).node? place

def makeDirectory (path : Path) : DiskM Unit := do
  let place ← locateNew path
  match ← node? place with
  | some _ => throw .alreadyExists
  | none => modify (·.put place .directory)

/-- Makes a directory unless there is one. -/
def ensureDirectory (path : Path) : DiskM Unit := fun disk =>
  match makeDirectory path disk with
  | .ok _ disk => .ok () disk
  | .error fault disk => if disk.isDirectory path then .ok () disk else .error fault disk

/-- Makes the first directory, after those that follow if it needs them. -/
def ensureChain : List Path → DiskM Unit
  | [] => pure ()
  | path :: ancestors => fun disk =>
      match ensureDirectory path disk with
      | .error .notFound disk => (do ensureChain ancestors; ensureDirectory path : DiskM Unit) disk
      | result => result

/-- Makes a directory with all that lead to it. -/
def ensureDirectories (path : Path) : DiskM Unit :=
  ensureChain (path :: path.ancestors)

/-- Makes an empty file where nothing stands. -/
def createFile (path : Path) : DiskM Unit := do
  let place ← locate path
  match ← node? place with
  | some _ => throw .alreadyExists
  | none => modify (·.put place (.file .empty))

def readText (path : Path) : DiskM String := do
  match ← node? (← locate path) with
  | none => throw .notFound
  | some .directory => throw .isDirectory
  | some (.file content) =>
      match String.fromUTF8? content with
      | some text => return text
      | none => throw .notText

/-- Makes a file or writes it anew. -/
def writeText (path : Path) (text : String) : DiskM Unit := do
  let place ← locate path
  match ← node? place with
  | some .directory => throw .isDirectory
  | _ => modify (·.put place (.file text.toUTF8))

def removeFile (path : Path) : DiskM Unit := do
  let place ← locate path
  match ← node? place with
  | none => throw .notFound
  | some .directory => throw .isDirectory
  | some (.file _) => modify (·.erase place)

/-- The names in a directory, in the order of the disk. -/
def listDirectory (path : Path) : DiskM (List String) := do
  let place ← locate path
  match ← node? place with
  | none => throw .notFound
  | some (.file _) => throw .notDirectory
  | some .directory => return (← get).names place

/-- Removes an empty directory, which cannot be named by a point. -/
def removeDirectory (path : Path) : DiskM Unit := do
  let place ← locate path
  match ← node? place with
  | none => throw .notFound
  | some (.file _) => throw .notDirectory
  | some .directory =>
      if path.withoutEnd.segments.getLast? = some "." then throw .invalidArgument
      unless ((← get).names place).isEmpty do throw .notEmpty
      modify (·.erase place)

/--
Removes a file, or a directory with everything in it. A directory is emptied before its path is
followed once more, so one whose path leads through its own contents stays, empty.
-/
def removeAll (path : Path) : DiskM Unit := do
  let place ← locate path
  match ← node? place with
  | none => throw .notFound
  | some (.file _) => modify (·.erase place)
  | some .directory =>
      modify (·.clear place)
      removeDirectory path

/-- Removes everything in a directory, one entry after the other. -/
def clearDirectory (path : Path) : DiskM Unit := do
  (← listDirectory path).forM fun name => removeAll (path.join name)

end DiskM

end TextTables
