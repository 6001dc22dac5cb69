import TextTables.Proofs.Store.Failing
import TextTables.Proofs.Store.Loading

/-!
# Second files that a load writes

Reading a database writes the second files that are missing, and nothing else. A table file whose
name has capitals looks for one second file and writes another, so that one place can be written
twice in a load. What was written last is what stands there when the load is over, even if it
fails.
-/

namespace TextTables

open Work

namespace Store

open StoreM (ofDisk)

variable {store : Store} {disk after : Disk} {directory : Path} {place : Location}
  {content : ByteArray}

/-- What is written, and where, if the second file of the table can be written. -/
def counterWrite? (directory : Path) (table : Table) (disk : Disk) :
    Option (Location × ByteArray) :=
  match disk.locate (counterPath directory table.name) with
  | .ok place =>
      if disk.node? place = some .directory then none
      else some (place, table.renderKey.toUTF8)
  | .error _ => none

/-- What reading a table writes, and where: its second file, if that is missing. -/
def restoration? (directory : Path) (stem : String) (disk : Disk) : Option (Location × ByteArray) :=
  match DiskM.readText (tablePath directory stem) disk with
  | .error _ _ => none
  | .ok text _ =>
      match Table.parse stem text with
      | .error _ => none
      | .ok table =>
          match DiskM.readText (counterPath directory stem) disk with
          | .error .notFound _ =>
              counterWrite? directory { table with lastKey := table.rows.length } disk
          | _ => none

/-- What reading a directory entry writes, and where. -/
def entryRestoration? (directory : Path) (entry : String) (disk : Disk) :
    Option (Location × ByteArray) :=
  if disk.isFile (directory.join entry) then
    match stem? entry with
    | some stem => restoration? directory stem disk
    | none => none
  else none

/-- What reading the entries writes before it ends or fails, and where, the last one first. -/
def restorations (directory : Path) :
    List String → Database → Disk → List (Location × ByteArray)
  | [], _, _ => []
  | entry :: rest, database, disk =>
      let later := match loadEntry directory database entry disk with
        | .ok next after => restorations directory rest next after
        | .error _ _ => []
      later ++ (entryRestoration? directory entry disk).toList

/-- The disk with the file written, if there is one. -/
def restored (disk : Disk) : Option (Location × ByteArray) → Disk
  | some (place, content) => disk.put place (.file content)
  | none => disk

theorem left_writeCounter (directory : Path) (table : Table) (disk : Disk) :
    left (writeCounter directory table disk) =
      restored disk (counterWrite? directory table disk) := by
  rw [writeCounter, StoreM.left_ofDisk, DiskM.writeText_apply, counterWrite?]
  cases disk.locate (counterPath directory table.name) with
  | error fault => rfl
  | ok place =>
      by_cases directory : disk.node? place = some .directory <;>
        simp [directory, left, restored]

theorem left_loadTable (directory : Path) (stem : String) (disk : Disk) :
    left (loadTable directory stem disk) = restored disk (restoration? directory stem disk) := by
  unfold loadTable restoration?
  rcases DiskM.readText_cases (tablePath directory stem) disk with ⟨text, read⟩ | ⟨fault, unread⟩
  · rw [Work.bind_ok (StoreM.ofDisk_ok read), read]
    cases parsed : Table.parse stem text with
    | error cause =>
        simp only [parsed]
        rfl
    | ok table =>
        apply (congrArg left (Work.bind_ok rfl _)).trans
        simp only [parsed]
        rcases DiskM.readText_cases (counterPath directory stem) disk with
          ⟨key, found⟩ | ⟨fault, lost⟩
        · rw [found]
          cases number : Table.parseKey key with
          | error cause =>
              have counter : readCounter (counterPath directory stem) disk =
                  .error (.corruptFile (counterPath directory stem).text cause) disk := by
                simp only [readCounter, found, number]
              rw [Work.bind_error counter]
              rfl
          | ok number' =>
              have counter : readCounter (counterPath directory stem) disk =
                  .ok (some number') disk := by
                simp only [readCounter, found, number]
              rw [Work.bind_ok counter]
              rfl
        · rw [lost]
          by_cases missing : fault = .notFound
          · subst missing
            have counter : readCounter (counterPath directory stem) disk = .ok none disk := by
              simp only [readCounter, lost]
            rw [Work.bind_ok counter, ← left_writeCounter]
            cases written :
                writeCounter directory { table with lastKey := table.rows.length } disk with
            | ok result after => exact congrArg left (Work.bind_ok written _)
            | error error after => exact congrArg left (Work.bind_error written _)
          · have counter : readCounter (counterPath directory stem) disk =
                .error (.disk fault) disk := by
              simp only [readCounter, lost]
            rw [Work.bind_error counter]
            cases fault <;> first | rfl | exact absurd rfl missing
  · rw [Work.bind_error (StoreM.ofDisk_error unread), unread]
    rfl

theorem left_loadEntry (directory : Path) (database : Database) (entry : String) (disk : Disk) :
    left (loadEntry directory database entry disk) =
      restored disk (entryRestoration? directory entry disk) := by
  rw [loadEntry_apply]
  unfold entryRestoration?
  by_cases isFile : disk.isFile (directory.join entry)
  · simp only [isFile, if_true]
    cases stem? entry with
    | none => rfl
    | some stem =>
        dsimp only
        rw [← left_loadTable]
        cases outcome : loadTable directory stem disk with
        | error error after => rw [Work.bind_error outcome]; rfl
        | ok table after =>
            rw [Work.bind_ok outcome]
            cases database.addTable table <;> rfl
  · simp only [isFile]
    rfl

theorem noDirectory_of_entryRestoration? {entry : String}
    (written : entryRestoration? directory entry disk = some (place, content)) :
    disk.node? place ≠ some .directory := by
  have spot : ∀ table, counterWrite? directory table disk = some (place, content) →
      disk.node? place ≠ some .directory := by
    intro table found
    unfold counterWrite? at found
    split at found
    · split at found
      · cases found
      · cases found
        assumption
    · cases found
  unfold entryRestoration? restoration? at written
  repeat' split at written
  all_goals first | exact spot _ written | cases written

/-- A load that is over has left the last of its writes at each place. -/
theorem node?_loadEntries (directory : Path) (entries : List String) (database : Database)
    (disk : Disk) (place : Location) :
    (left ((entries.foldlM (loadEntry directory) database : StoreM Database) disk)).node? place =
      match (restorations directory entries database disk).lookup place with
      | some content => some (.file content)
      | none => disk.node? place := by
  induction entries generalizing database disk with
  | nil => rfl
  | cons entry rest inductionHypothesis =>
      have here := left_loadEntry directory database entry disk
      have after : (restored disk (entryRestoration? directory entry disk)).node? place =
          match (entryRestoration? directory entry disk).toList.lookup place with
          | some content => some (.file content)
          | none => disk.node? place := by
        cases written : entryRestoration? directory entry disk with
        | none => rfl
        | some write =>
            obtain ⟨spot, content⟩ := write
            have below := Disk.ne_nil_of_node? (noDirectory_of_entryRestoration? written)
            rw [restored, Disk.node?_put _ below]
            by_cases here : place = spot
            · simp [here]
            · have apart : (place == spot) = false := by simpa using here
              simp [here, List.lookup_cons, apart]
      rw [List.foldlM_cons, restorations]
      cases outcome : loadEntry directory database entry disk with
      | error error middle =>
          rw [outcome] at here
          rw [Work.bind_error outcome]
          exact (congrArg (Disk.node? · place) here).trans after
      | ok next middle =>
          rw [outcome] at here
          have start : middle.node? place = _ := (congrArg (Disk.node? · place) here).trans after
          rw [Work.bind_ok outcome, inductionHypothesis]
          dsimp only
          rw [List.lookup_append, start]
          cases (restorations directory rest next middle).lookup place <;> rfl

end Store

/-- A load of the directory at the path leaves a second file other than it was. -/
def Disk.Restores (disk : Disk) (path : Path) (name : String) : Prop :=
  ∃ top, disk.locate path = .ok top ∧ disk.node? top = some .directory ∧ ∃ place content,
    (Store.restorations path (disk.names top) (Database.empty name) disk).lookup place =
        some content ∧
      disk.node? place ≠ some (.file content)

/-- A load that fails has written second files by then. -/
theorem Store.loadDatabase_same_iff {store : Store} {name : String} {disk after : Disk}
    {error : Error} (failed : store.loadDatabase name disk = .error error after) :
    disk.Same after ↔ ¬ disk.Restores (store.directory name) name := by
  by_cases isDirectory : disk.isDirectory (store.directory name)
  · obtain ⟨top, located, directory⟩ := Disk.isDirectory_iff.mp isDirectory
    rw [loadDatabase_apply (Disk.Leads.of_locate located directory) located] at failed
    have nodes := node?_loadEntries (store.directory name) (disk.names top) (Database.empty name)
      disk
    rw [failed] at nodes
    constructor
    · rintro same ⟨other, found, -, place, content, written, different⟩
      cases located.symm.trans found
      have stored := nodes place
      rw [written] at stored
      exact different ((same place).symm.trans stored)
    · intro kept place
      have stored := nodes place
      cases written : (restorations (store.directory name) (disk.names top) (Database.empty name)
          disk).lookup place with
      | none =>
          rw [written] at stored
          exact stored
      | some content =>
          rw [written] at stored
          by_contra different
          refine kept ⟨top, located, directory, place, content, written, fun same => different ?_⟩
          exact stored.trans same.symm
  · have refused : store.loadDatabase name disk = .error (.unknownDatabase name) disk :=
      loadDatabase_unknown (by simpa using isDirectory)
    cases refused.symm.trans failed
    apply iff_of_true (Disk.Same.refl _)
    rintro ⟨top, located, directory, -⟩
    exact isDirectory (Disk.isDirectory_iff.mpr ⟨top, located, directory⟩)

end TextTables
