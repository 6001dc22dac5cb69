import TextTables.Proofs.Store.Premises
import TextTables.Proofs.Store.Reading
import TextTables.Proofs.Store.Restoring

/-!
# How far the work of a store reaches

Whether it succeeds or fails, work on a table changes the two files of that table, and removing a
database takes away what stands in its directory. All other work puts something where nothing stood.
What stands below the root stays in order.
-/

namespace TextTables

open Location Work Text

namespace Disk

/-- The places of both files of a table. -/
def filesOf (top : Location) (database table : String) : List Location :=
  [top ++ [database] ++ [table ++ tableEnding], top ++ [database] ++ [table ++ counterEnding]]

/-- Nothing is changed but the files of one table. -/
structure WorkedOn (root : Path) (top : Location) (database table : String)
    (before after : Disk) : Prop where
  orderly : after.Orderly root top
  changed : ChangedOn (filesOf top database table) before after

/-- Nothing is changed but that something is put where nothing stood. -/
structure Grown (root : Path) (top : Location) (before after : Disk) : Prop where
  orderly : after.Orderly root top
  extended : before.Extends after

/-- Nothing is changed but that a directory, or what stands in it, is taken away. -/
structure Cut (root : Path) (top : Location) (database : String) (before after : Disk) : Prop where
  orderly : after.Orderly root top
  reduced : ReducedAt (top ++ [database]) before after

variable {root : Path} {top place : Location} {database table file : String}
  {disk middle after : Disk}

theorem WorkedOn.refl (orderly : disk.Orderly root top) :
    WorkedOn root top database table disk disk :=
  ⟨orderly, .refl _ _⟩

theorem WorkedOn.trans (first : WorkedOn root top database table disk middle)
    (second : WorkedOn root top database table middle after) :
    WorkedOn root top database table disk after :=
  ⟨second.orderly, first.changed.trans second.changed⟩

theorem Grown.refl (orderly : disk.Orderly root top) : Grown root top disk disk :=
  ⟨orderly, .refl _⟩

theorem Grown.trans (first : Grown root top disk middle) (second : Grown root top middle after) :
    Grown root top disk after :=
  ⟨second.orderly, first.extended.trans second.extended⟩

theorem Cut.refl (orderly : disk.Orderly root top) : Cut root top database disk disk :=
  ⟨orderly, .refl _ _⟩

theorem Cut.trans (first : Cut root top database disk middle)
    (second : Cut root top database middle after) : Cut root top database disk after :=
  ⟨second.orderly, first.reduced.trans second.reduced⟩

theorem mem_filesOf (isFile : IsFileOf table file) :
    top ++ [database] ++ [file] ∈ filesOf top database table := by
  rcases isFile with rfl | rfl <;> simp [filesOf]

/-- A file of the table is written where its path leads. -/
theorem Orderly.write (orderly : disk.Orderly root top) (named : IsName database)
    (tableNamed : IsName table)
    (isFile : IsFileOf table file)
    (located : disk.locate ((root.join database).join file) = .ok place)
    (noDirectory : disk.node? place ≠ some .directory) (content : ByteArray) :
    WorkedOn root top database table disk (disk.put place (.file content)) := by
  obtain ⟨leads, -, rfl⟩ :=
    orderly.leads_of_locate named (isFile.isFileName tableNamed) located
  refine ⟨orderly.putFile leads.directory noDirectory ⟨table, tableNamed, isFile⟩ content,
    home_put _ _ _, fun other apart => ?_⟩
  rw [node?_put _ (ne_nil_of_node? noDirectory), if_neg]
  rintro rfl
  exact apart (mem_filesOf isFile)

/-- A file of the table is taken away, and nothing stood below it. -/
theorem Orderly.remove (orderly : disk.Orderly root top) (named : IsName database)
    (tableNamed : IsName table)
    (isFile : IsFileOf table file)
    (located : disk.locate ((root.join database).join file) = .ok place)
    (noDirectory : disk.node? place ≠ some .directory) :
    WorkedOn root top database table disk (disk.erase place) := by
  obtain ⟨-, -, rfl⟩ :=
    orderly.leads_of_locate named (isFile.isFileName tableNamed) located
  have below := ne_nil_of_node? noDirectory
  refine ⟨orderly.erase below, rfl, fun other apart => ?_⟩
  rw [node?_erase _ below]
  split
  · rename_i under
    obtain ⟨rest, rfl⟩ := List.isPrefixOf_iff_prefix.mp under
    cases rest with
    | nil =>
        rw [List.append_nil] at apart
        exact absurd (mem_filesOf isFile) apart
    | cons first others =>
        refine (orderly.vacant ?_ noDirectory others).symm
        exact (List.prefix_append _ _).trans (List.prefix_append _ _)
  · rfl

end Disk

namespace DiskM

variable {root : Path} {top : Location} {database table file : String} {disk : Disk}

theorem writeText_workedOn (orderly : disk.Orderly root top) (named : IsName database)
    (tableNamed : IsName table)
    (isFile : IsFileOf table file) (text : String) :
    Disk.WorkedOn root top database table disk
      (left (writeText ((root.join database).join file) text disk)) := by
  cases outcome : writeText ((root.join database).join file) text disk with
  | ok result after =>
      obtain ⟨place, located, noDirectory, rfl⟩ := writeText_eq_ok outcome
      exact orderly.write named tableNamed isFile located noDirectory _
  | error fault after =>
      rw [left, (writeText_eq_error outcome).1]
      exact .refl orderly

theorem createFile_workedOn (orderly : disk.Orderly root top) (named : IsName database)
    (tableNamed : IsName table)
    (isFile : IsFileOf table file) :
    Disk.WorkedOn root top database table disk
      (left (createFile ((root.join database).join file) disk)) := by
  cases outcome : createFile ((root.join database).join file) disk with
  | ok result after =>
      obtain ⟨place, located, free, rfl⟩ := createFile_eq_ok outcome
      exact orderly.write named tableNamed isFile located (Disk.noDirectory_of_free free) _
  | error fault after =>
      rw [left, (createFile_eq_error outcome).1]
      exact .refl orderly

theorem removeFile_workedOn (orderly : disk.Orderly root top) (named : IsName database)
    (tableNamed : IsName table)
    (isFile : IsFileOf table file) :
    Disk.WorkedOn root top database table disk
      (left (removeFile ((root.join database).join file) disk)) := by
  cases outcome : removeFile ((root.join database).join file) disk with
  | ok result after =>
      obtain ⟨place, content, located, stored, rfl⟩ := removeFile_eq_ok outcome
      exact orderly.remove named tableNamed isFile located (by simp [stored])
  | error fault after =>
      rw [left, (removeFile_eq_error outcome).1]
      exact .refl orderly

/-- A directory that is removed lies where its path leads. -/
theorem removeDirectory_cut {path : Path} (orderly : disk.Orderly root top)
    (inside : ∀ place, disk.locate path = .ok place → top ++ [database] <+: place) :
    Disk.Cut root top database disk (left (removeDirectory path disk)) := by
  rw [removeDirectory_apply]
  cases located : disk.locate path with
  | error fault => exact .refl orderly
  | ok place =>
      have under := inside place located
      have below : place ≠ [] := by
        rintro rfl
        simp at under
      dsimp only
      split
      · exact .refl orderly
      · exact .refl orderly
      · split
        · exact .refl orderly
        · split
          · exact ⟨orderly.erase below, .erase under below⟩
          · exact .refl orderly

/-- An entry of a database is taken away with what stands below it. -/
theorem removeAll_cut {entry : String} (orderly : disk.Orderly root top) (named : IsName database)
    (proper : IsFileName entry) :
    Disk.Cut root top database disk
      (left (removeAll ((root.join database).join entry) disk)) := by
  have inside : ∀ disk : Disk, disk.Orderly root top → ∀ place,
      disk.locate ((root.join database).join entry) = .ok place → top ++ [database] <+: place := by
    intro disk orderly place located
    obtain ⟨-, -, rfl⟩ := orderly.leads_of_locate named proper located
    exact ⟨[entry], by simp⟩
  rw [removeAll_apply]
  cases located : disk.locate ((root.join database).join entry) with
  | error fault => exact .refl orderly
  | ok place =>
      have under := inside disk orderly place located
      rcases stands : disk.node? place with - | - | content
      · simp only [stands]
        exact .refl orderly
      · simp only [stands]
        have cleared : Disk.Cut root top database disk (disk.clear place) :=
          ⟨orderly.clear place, .clear under⟩
        exact cleared.trans (removeDirectory_cut cleared.orderly (inside _ cleared.orderly))
      · simp only [stands]
        have noDirectory : disk.node? place ≠ some .directory := by simp [stands]
        have below := Disk.ne_nil_of_node? noDirectory
        exact ⟨orderly.erase below, .erase under below⟩

theorem removeEach_cut {entries : List String} (orderly : disk.Orderly root top)
    (named : IsName database) (proper : ∀ entry ∈ entries, IsFileName entry) :
    Disk.Cut root top database disk
      (left ((entries.forM fun entry => removeAll ((root.join database).join entry) : DiskM Unit)
        disk)) := by
  refine left_forM (Disk.Cut root top database disk) (fun entry member middle cut => ?_)
    (.refl orderly)
  exact cut.trans (removeAll_cut cut.orderly named (proper entry member))

end DiskM

namespace Store

open StoreM (ofDisk)

variable {store : Store} {top : Location} {database name : String} {table : Table} {disk : Disk}

theorem left_unlessTaken (work : DiskM Unit) (taken : Error) (disk : Disk) :
    left (unlessTaken work taken disk) = left (work disk) := by
  unfold unlessTaken
  split <;> rename_i outcome <;> rw [outcome] <;> rfl

theorem saveTable_workedOn (orderly : disk.Orderly store.root top) (named : IsName database)
    (tableNamed : IsName table.name) :
    Disk.WorkedOn store.root top database table.name disk
      (left (store.saveTable database table disk)) := by
  refine left_bind (Disk.WorkedOn store.root top database table.name disk) ?_
    fun _ middle worked => ?_
  · rw [StoreM.left_ofDisk]
    exact DiskM.writeText_workedOn orderly named tableNamed (.inl rfl) _
  · rw [writeCounter, StoreM.left_ofDisk]
    exact worked.trans (DiskM.writeText_workedOn worked.orderly named tableNamed (.inr rfl) _)

theorem createTable_workedOn (orderly : disk.Orderly store.root top) (named : IsName database)
    (tableNamed : IsName table.name) :
    Disk.WorkedOn store.root top database table.name disk
      (left (store.createTable database table disk)) := by
  refine left_bind (Disk.WorkedOn store.root top database table.name disk) ?_
    fun _ middle worked => ?_
  · rw [left_unlessTaken]
    exact DiskM.createFile_workedOn orderly named tableNamed (.inl rfl)
  · exact worked.trans (saveTable_workedOn worked.orderly named tableNamed)

theorem deleteTable_workedOn (orderly : disk.Orderly store.root top) (named : IsName database)
    (tableNamed : IsName name) :
    Disk.WorkedOn store.root top database name disk
      (left (store.deleteTable database name disk)) := by
  refine left_bind (Disk.WorkedOn store.root top database name disk) ?_ fun _ middle worked => ?_
  · rw [StoreM.left_ofDisk]
    exact DiskM.removeFile_workedOn orderly named tableNamed (.inl rfl)
  · have second : Disk.WorkedOn store.root top database name middle
        (left (DiskM.removeFile (counterPath (store.directory database) name) middle)) :=
      DiskM.removeFile_workedOn worked.orderly named tableNamed (.inr rfl)
    refine worked.trans ?_
    split <;> rename_i outcome <;> rwa [outcome] at second

theorem createDatabase_grown (orderly : disk.Orderly store.root top) (named : IsName name) :
    Disk.Grown store.root top disk (left (store.createDatabase name disk)) := by
  rw [createDatabase, left_unlessTaken]
  cases outcome : DiskM.makeDirectory (store.directory name) disk with
  | ok result after =>
      obtain ⟨sound, place, followed, free, rfl⟩ := DiskM.makeDirectory_eq_ok outcome
      have located : disk.locate (store.root.join name) = .ok place := by
        rw [directory, Path.withoutEnd_join named.isFileName] at followed
        rw [Disk.locate, show (store.root.join name).fault? = none from sound]
        exact followed
      obtain ⟨leads, -, rfl⟩ := Disk.leads_of_locate_join named.isFileName located
      rw [orderly.ends] at leads free ⊢
      refine ⟨orderly.putDirectory free (fun rest same other member => ?_)
        fun parent other _ same => ?_, .put free _⟩
      · rw [← List.append_cancel_left same] at member
        exact List.mem_singleton.mp member ▸ named.isFileName
      · rw [← (List.append_inj' same rfl).1, leads.directory]
  | error fault after =>
      rw [left, DiskM.makeDirectory_eq_error outcome]
      exact .refl orderly

theorem dropDatabase_cut (orderly : disk.Orderly store.root top) (named : IsName name) :
    Disk.Cut store.root top name disk (left (store.dropDatabase name disk)) := by
  by_cases isDirectory : disk.isDirectory (store.directory name)
  · obtain ⟨place, located, directory⟩ := Disk.isDirectory_iff.mp isDirectory
    obtain rfl := orderly.eq_of_locate named located
    rw [dropDatabase_apply located directory]
    refine left_bind (Disk.Cut store.root top name disk) ?_ fun _ middle cut => ?_
    · rw [StoreM.left_ofDisk]
      exact DiskM.removeEach_cut orderly named fun entry => orderly.isFileName_of_mem_names
    · rw [StoreM.left_ofDisk]
      refine cut.trans (DiskM.removeDirectory_cut cut.orderly fun place located => ?_)
      rw [cut.orderly.eq_of_locate named located]
  · rw [dropDatabase_unknown (by simpa using isDirectory)]
    exact .refl orderly

/-- What an entry restores is the second file of its table, which was not found. -/
theorem entryRestoration?_eq_some {directory : Path} {entry : String} {place : Location}
    {content : ByteArray}
    (written : entryRestoration? directory entry disk = some (place, content)) :
    disk.isFile (directory.join entry) ∧ ∃ stem, stem? entry = some stem ∧
      DiskM.readText (counterPath directory stem) disk = .error .notFound disk ∧
      disk.locate (counterPath directory (lowercase stem)) = .ok place := by
  unfold entryRestoration? at written
  split at written
  · rename_i isFile
    refine ⟨isFile, ?_⟩
    split at written
    · rename_i stem named
      refine ⟨stem, named, ?_⟩
      unfold restoration? at written
      split at written
      · cases written
      · split at written
        · cases written
        · rename_i parsed accepted
          split at written
          · rename_i middle missing
            obtain rfl : middle = disk := by
              rcases DiskM.readText_cases (counterPath directory stem) disk with
                ⟨key, found⟩ | ⟨fault, lost⟩
              · cases found.symm.trans missing
              · cases lost.symm.trans missing
                rfl
            refine ⟨missing, ?_⟩
            have called : parsed.name = lowercase stem := (Table.parse_eq_ok accepted).2.1
            unfold counterWrite? at written
            split at written
            · rename_i other located
              split at written
              · cases written
              · cases written
                rw [← called]
                exact located
            · cases written
          · cases written
    · cases written
  · cases written

/-- Reading an entry changes nothing, or writes the second file of its table, which has none. -/
theorem loadEntry_restores (sofar : Database) {entry : String}
    (orderly : disk.Orderly store.root top) (named : IsName database) (proper : IsFileName entry) :
    left (loadEntry (store.directory database) sofar entry disk) = disk ∨
      ∃ table content, IsName table ∧ entry = table ++ tableEnding ∧
        disk.Leads (store.directory database) (top ++ [database]) ∧
        disk.node? (top ++ [database] ++ [table ++ counterEnding]) = none ∧
        left (loadEntry (store.directory database) sofar entry disk) =
          disk.put (top ++ [database] ++ [table ++ counterEnding]) (.file content) := by
  rw [left_loadEntry]
  cases written : entryRestoration? (store.directory database) entry disk with
  | none => exact .inl rfl
  | some write =>
      obtain ⟨place, content⟩ := write
      obtain ⟨isFile, stem, isStem, missing, located⟩ := entryRestoration?_eq_some written
      obtain ⟨spot, stored, found, stands⟩ := Disk.isFile_iff.mp isFile
      obtain ⟨leads, -, rfl⟩ := orderly.leads_of_locate named proper found
      obtain ⟨table, tableNamed, rfl | rfl⟩ := orderly.files database entry stored stands
      · obtain rfl : table = stem := Option.some.inj ((stem?_table tableNamed).symm.trans isStem)
        rw [tableNamed.lower] at located
        obtain ⟨-, -, rfl⟩ :=
          orderly.leads_of_locate named tableNamed.isFileName_counter located
        have free := DiskM.free_of_readText missing located
        exact .inr ⟨table, content, tableNamed, rfl, leads, free, rfl⟩
      · rw [stem?_counter] at isStem
        cases isStem

theorem loadEntry_grown (sofar : Database) {entry : String} (orderly : disk.Orderly store.root top)
    (named : IsName database) (proper : IsFileName entry) :
    Disk.Grown store.root top disk
      (left (loadEntry (store.directory database) sofar entry disk)) := by
  rcases loadEntry_restores sofar orderly named proper with same |
    ⟨table, content, tableNamed, -, leads, free, same⟩
  · rw [same]
    exact .refl orderly
  · rw [same]
    exact ⟨orderly.putFile leads.directory (Disk.noDirectory_of_free free)
      ⟨table, tableNamed, .inr rfl⟩ _, .put free _⟩

/-- Reading a database writes at most second files of tables that have none. -/
theorem loadDatabase_grown (orderly : disk.Orderly store.root top) (named : IsName name) :
    Disk.Grown store.root top disk (left (store.loadDatabase name disk)) := by
  by_cases isDirectory : disk.isDirectory (store.directory name)
  · obtain ⟨place, located, directory⟩ := Disk.isDirectory_iff.mp isDirectory
    obtain rfl := orderly.eq_of_locate named located
    rw [loadDatabase_apply (Disk.Leads.of_locate located directory) located]
    refine left_foldlM (Disk.Grown store.root top disk) (fun entry member _ middle grown => ?_)
      (.refl orderly)
    exact grown.trans
      (loadEntry_grown _ grown.orderly named (orderly.isFileName_of_mem_names member))
  · rw [loadDatabase_unknown (by simpa using isDirectory)]
    exact .refl orderly

end Store

end TextTables
