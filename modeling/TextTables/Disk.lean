import TextTables.Disk.Path
import TextTables.Error

/-!
# The disk

The files and directories below one top directory. Paths start there or at the working
directory, which can be any place below it. A directory lists its entries in the order in which
they were made. What stands where is all that the operations are about: each one comes with the
law that says what stands where after it.
-/

namespace TextTables

/-- Where something stands: the names that lead to it from the top. -/
abbrev Location := List String

inductive Node where
  | directory
  | file (content : ByteArray)

instance : DecidableEq Node
  | .directory, .directory => isTrue rfl
  | .file content, .file other =>
      match ByteArray.instDecidableEq content other with
      | isTrue same => isTrue (same ▸ rfl)
      | isFalse differ => isFalse fun same => differ (Node.file.inj same)
  | .directory, .file _ => isFalse nofun
  | .file _, .directory => isFalse nofun

structure Disk where
  /-- The working directory. -/
  home : Location
  entries : List (Location × Node)
deriving DecidableEq

/-- The most bytes in the name of a file or directory. -/
def maxNameSize : Nat := 255

/-- The most bytes in a path. -/
def maxPathSize : Nat := 4095

/-- Why a path leads nowhere, whatever is on the disk. -/
def Path.fault? (path : Path) : Option Fault :=
  if path.segments.any fun segment => segment.toList.contains '\x00' then some .zeroInName
  else if maxPathSize < path.size then some .nameTooLong
  else none

namespace Disk

/-- The disk with nothing on it, and the top as the working directory. -/
def empty : Disk := ⟨[], []⟩

/-- What stands at a location, if anything. The top is always there. -/
def node? (disk : Disk) (place : Location) : Option Node :=
  if place = [] then some .directory else disk.entries.lookup place

/-- Puts a node at a location, in the place of what stands there. -/
def put (disk : Disk) (place : Location) (node : Node) : Disk :=
  if (disk.entries.lookup place).isSome then
    { disk with
      entries := disk.entries.map fun entry => if entry.1 = place then (place, node) else entry }
  else { disk with entries := disk.entries ++ [(place, node)] }

/-- Takes away what stands strictly below a location. -/
def clear (disk : Disk) (place : Location) : Disk :=
  { disk with
    entries := disk.entries.filter fun entry => !(place.isPrefixOf entry.1 && entry.1 != place) }

/-- Takes away what stands at a location and below it. -/
def erase (disk : Disk) (place : Location) : Disk :=
  { disk with entries := disk.entries.filter fun entry => !place.isPrefixOf entry.1 }

theorem lookup_replace (entries : List (Location × Node)) (place other : Location) (node : Node) :
    (entries.map fun entry => if entry.1 = place then (place, node) else entry).lookup other =
      if other = place then (entries.lookup other).map fun _ => node
      else entries.lookup other := by
  induction entries with
  | nil => simp
  | cons entry rest inductionHypothesis =>
      obtain ⟨key, stored⟩ := entry
      by_cases asked : other = key
      · subst asked
        by_cases here : other = place <;> simp [here]
      · have different : (other == key) = false := by simpa using asked
        by_cases here : key = place
        · subst here
          simp [List.lookup_cons, different, asked, inductionHypothesis]
        · simp [List.lookup_cons, here, different, inductionHypothesis]

theorem lookup_filter (entries : List (Location × Node)) (test : Location → Bool)
    (other : Location) :
    (entries.filter fun entry => test entry.1).lookup other =
      if test other then entries.lookup other else none := by
  induction entries with
  | nil => simp
  | cons entry rest inductionHypothesis =>
      obtain ⟨key, stored⟩ := entry
      by_cases asked : other = key
      · subst asked
        by_cases kept : test other <;> simp [kept, inductionHypothesis]
      · have different : (other == key) = false := by simpa using asked
        by_cases kept : test key <;>
          simp [List.lookup_cons, kept, different, inductionHypothesis]

theorem lookup_append (entries : List (Location × Node)) (place other : Location) (node : Node)
    (free : entries.lookup place = none) :
    (entries ++ [(place, node)]).lookup other =
      if other = place then some node else entries.lookup other := by
  induction entries with
  | nil =>
      by_cases asked : other = place
      · simp [asked]
      · have different : (other == place) = false := by simpa using asked
        simp [List.lookup_cons, different, asked]
  | cons entry rest inductionHypothesis =>
      obtain ⟨key, stored⟩ := entry
      by_cases here : place = key
      · simp [here] at free
      · have apart : (place == key) = false := by simpa using here
        have inner := inductionHypothesis (by simpa [List.lookup_cons, apart] using free)
        by_cases asked : other = key
        · subst asked
          simp [Ne.symm here]
        · have different : (other == key) = false := by simpa using asked
          simp [List.lookup_cons, different, inner]

/-- After a node is put somewhere, it stands there, and all else is as before. -/
theorem node?_put (disk : Disk) {place : Location} (below : place ≠ []) (node : Node)
    (other : Location) :
    (disk.put place node).node? other =
      if other = place then some node else disk.node? other := by
  by_cases top : other = []
  · simp [node?, top, Ne.symm below]
  · simp only [node?, top, if_false, put]
    cases stored : disk.entries.lookup place with
    | none => simp [lookup_append _ _ _ _ stored]
    | some before =>
        simp only [Option.isSome_some, if_true, lookup_replace]
        by_cases asked : other = place <;> simp [asked, stored]

/-- After a location is erased, nothing stands there or below, and all else is as before. -/
theorem node?_erase (disk : Disk) {place : Location} (below : place ≠ []) (other : Location) :
    (disk.erase place).node? other =
      if place.isPrefixOf other then none else disk.node? other := by
  by_cases top : other = []
  · subst top
    cases place with
    | nil => exact absurd rfl below
    | cons name rest => simp [node?]
  · have kept := lookup_filter disk.entries (fun location => !place.isPrefixOf location) other
    simp only [node?, top, if_false, erase]
    rw [kept]
    cases place.isPrefixOf other <;> rfl

/-- After a location is cleared, nothing stands below, and all else is as before. -/
theorem node?_clear (disk : Disk) (place other : Location) :
    (disk.clear place).node? other =
      if place.isPrefixOf other && other != place then none else disk.node? other := by
  by_cases top : other = []
  · subst top
    cases place with
    | nil => simp [node?]
    | cons name rest => simp [node?]
  · have kept := lookup_filter disk.entries
      (fun location => !(place.isPrefixOf location && location != place)) other
    simp only [node?, top, if_false, clear]
    rw [kept]
    cases place.isPrefixOf other && other != place <;> rfl

/-- The entry's name, if it stands directly in the given directory. -/
def childName? (place : Location) (entry : Location × Node) : Option String :=
  match entry.1.getLast? with
  | some name => if entry.1.dropLast = place then some name else none
  | none => none

/-- The names of what stands directly in a directory. -/
def names (disk : Disk) (place : Location) : List String :=
  disk.entries.filterMap (childName? place)

/--
Follows segments from a location. Each segment but the last has to lead to a directory; what
the last one leads to does not have to be there.
-/
def follow (disk : Disk) (place : Location) : List String → Except Fault Location
  | [] => .ok place
  | segment :: rest =>
      match disk.node? place with
      | none => .error .notFound
      | some (.file _) => .error .notDirectory
      | some .directory =>
          if segment = "" ∨ segment = "." then disk.follow place rest
          else if segment = ".." then disk.follow place.dropLast rest
          else if maxNameSize < segment.utf8ByteSize then .error .nameTooLong
          else disk.follow (place ++ [segment]) rest

/-- The place where a path starts. -/
def start (disk : Disk) (path : Path) : Location :=
  if path.isAbsolute then [] else disk.home

/-- The location that the path names. -/
def locate (disk : Disk) (path : Path) : Except Fault Location :=
  match path.fault? with
  | some fault => .error fault
  | none => disk.follow (disk.start path) path.segments

/-- The location that the path names for a new directory, which slashes can follow. -/
def locateNew (disk : Disk) (path : Path) : Except Fault Location :=
  match path.fault? with
  | some fault => .error fault
  | none => disk.follow (disk.start path) path.withoutEnd.segments

/-- What a path leads to, if it leads anywhere. -/
def lookup? (disk : Disk) (path : Path) : Option Node :=
  match disk.locate path with
  | .ok place => disk.node? place
  | .error _ => none

def isDirectory (disk : Disk) (path : Path) : Bool :=
  disk.lookup? path == some .directory

def isFile (disk : Disk) (path : Path) : Bool :=
  match disk.lookup? path with
  | some (.file _) => true
  | _ => false

/-- Makes the missing directories on the way to a location, and the location itself. -/
def plantDirectory (disk : Disk) (place : Location) : Disk :=
  (List.range' 1 place.length).foldl (fun disk count =>
    match disk.node? (place.take count) with
    | some .directory => disk
    | _ => disk.put (place.take count) .directory) disk

/-- Puts a file at a location, with the directories that it needs. -/
def plantFile (disk : Disk) (place : Location) (content : ByteArray) : Disk :=
  (disk.plantDirectory place.dropLast).put place (.file content)

end Disk

end TextTables
