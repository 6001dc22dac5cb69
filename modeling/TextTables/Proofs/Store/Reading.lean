import TextTables.Proofs.Store.Failing
import TextTables.Proofs.Store.Loading
import TextTables.Proofs.TableFile.Reading

/-!
# What a successful load has read

A database that was loaded is the directory's table files, each read as a table, one after the
other. Each table has its last primary key from its second file, or has counted its rows and
written that file.
-/

namespace TextTables

open Text

/-- What is read is a file. -/
theorem DiskM.isFile_of_readText {path : Path} {text : String} {disk after : Disk}
    (read : readText path disk = .ok text after) : disk.isFile path := by
  rw [readText_apply] at read
  rw [Disk.isFile_iff]
  cases located : disk.locate path with
  | error fault => simp [located] at read
  | ok place =>
      rcases stands : disk.node? place with - | - | content
      · simp [located, stands] at read
      · simp [located, stands] at read
      · exact ⟨place, content, rfl, stands⟩

/-- Nothing stands where a file was not found. -/
theorem DiskM.free_of_readText {path : Path} {place : Location} {disk after : Disk}
    (missing : readText path disk = .error .notFound after)
    (located : disk.locate path = .ok place) : disk.node? place = none := by
  rw [readText_apply, located] at missing
  rcases stands : disk.node? place with - | - | content
  · rfl
  · simp [stands] at missing
  · simp only [stands] at missing
    split at missing <;> cases missing

namespace Store

variable {directory : Path} {database next : Database} {disk after : Disk} {table : Table}
  {entry stem name : String} {store : Store}

theorem stem?_eq_some (named : stem? entry = some stem) :
    entry = stem ++ tableEnding ∧ ¬ counterEnding.toList <:+ entry.toList := by
  unfold stem? at named
  split at named
  · cases named
  · rename_i noCounter
    split at named
    · rename_i ends
      cases named
      refine ⟨String.toList_injective ?_, fun counter => noCounter ?_⟩
      · obtain ⟨front, whole⟩ := List.isSuffixOf_iff_suffix.mp ends
        rw [String.toList_append, String.toList_ofList, ← whole]
        simp
      · exact List.isSuffixOf_iff_suffix.mpr counter
    · cases named

/-- The last primary key comes from the second file, or is the number of rows and is written. -/
theorem loadTable_eq_ok (done : loadTable directory stem disk = .ok table after) :
    ∃ text parsed, DiskM.readText (tablePath directory stem) disk = .ok text disk ∧
      Table.parse stem text = .ok parsed ∧
      ((∃ key, readCounter (counterPath directory stem) disk = .ok (some key) disk ∧
          table = { parsed with lastKey := key } ∧ after = disk) ∨
        (readCounter (counterPath directory stem) disk = .ok none disk ∧
          table = { parsed with lastKey := parsed.rows.length } ∧
          writeCounter directory table disk = .ok () after)) := by
  obtain ⟨text, middle, read, parsing⟩ := Work.bind_eq_ok_iff.mp done
  have found := StoreM.ofDisk_eq_ok read
  obtain rfl : middle = disk := by
    rcases DiskM.readText_cases (tablePath directory stem) disk with ⟨other, same⟩ | ⟨fault, same⟩
    · cases same.symm.trans found
      rfl
    · cases same.symm.trans found
  obtain ⟨parsed, between, accepted, counting⟩ := Work.bind_eq_ok_iff.mp parsing
  cases outcome : Table.parse stem text with
  | error cause =>
      rw [outcome] at accepted
      cases accepted
  | ok read =>
      rw [outcome] at accepted
      cases accepted
      refine ⟨text, parsed, found, outcome, ?_⟩
      obtain ⟨counter, last, counted, ending⟩ := Work.bind_eq_ok_iff.mp counting
      obtain rfl : last = middle := by
        unfold readCounter at counted
        rcases DiskM.readText_cases (counterPath directory stem) middle with
          ⟨key, same⟩ | ⟨fault, same⟩
        · rw [same] at counted
          dsimp only at counted
          split at counted <;> cases counted
          rfl
        · rw [same] at counted
          cases fault <;> cases counted
          rfl
      cases counter with
      | some key =>
          cases ending
          exact .inl ⟨key, counted, rfl, rfl⟩
      | none =>
          obtain ⟨⟨⟩, final, written, finished⟩ := Work.bind_eq_ok_iff.mp ending
          cases finished
          exact .inr ⟨counted, rfl, written⟩

/-- However the last primary key was found, the rest of the table is what its file was read as. -/
theorem parse_of_loadTable (done : loadTable directory stem disk = .ok table after) :
    ∃ text parsed, DiskM.readText (tablePath directory stem) disk = .ok text disk ∧
      Table.parse stem text = .ok parsed ∧ table = { parsed with lastKey := table.lastKey } := by
  obtain ⟨text, parsed, read, accepted, ⟨key, -, rfl, -⟩ | ⟨-, rfl, -⟩⟩ := loadTable_eq_ok done
  · exact ⟨text, parsed, read, accepted, rfl⟩
  · exact ⟨text, parsed, read, accepted, rfl⟩

/-- A directory entry brings in the table that it is the file of, or nothing. -/
theorem loadEntry_eq_ok (done : loadEntry directory database entry disk = .ok next after) :
    (next = database ∧ after = disk ∧
        ∀ stem, stem? entry = some stem → disk.isFile (directory.join entry) = false) ∨
      ∃ stem table, stem? entry = some stem ∧ disk.isFile (directory.join entry) ∧
        loadTable directory stem disk = .ok table after ∧
        (∀ other ∈ database.tables, other.key ≠ table.key) ∧
        next = { database with tables := Database.place table database.tables } := by
  rw [loadEntry_apply] at done
  split at done
  · rename_i isFile
    cases named : stem? entry with
    | none =>
        rw [named] at done
        cases done
        exact .inl ⟨rfl, rfl, by simp⟩
    | some stem =>
        rw [named] at done
        obtain ⟨table, middle, loaded, added⟩ := Work.bind_eq_ok_iff.mp done
        refine .inr ⟨stem, table, rfl, isFile, ?_⟩
        by_cases fresh : ∀ other ∈ database.tables, other.key ≠ table.key
        · rw [Database.addTable_ok fresh] at added
          cases added
          exact ⟨loaded, fresh, rfl⟩
        · have taken : (database.tables.any fun other => other.key == table.key) = true := by
            simpa using fresh
          simp [Database.addTable, taken] at added
  · rename_i noFile
    cases done
    exact .inl ⟨rfl, rfl, fun _ _ => by simpa using noFile⟩

theorem loadDatabase_eq_ok (done : store.loadDatabase name disk = .ok database after) :
    ∃ place, disk.Leads (store.directory name) place ∧
      disk.locate (store.directory name) = .ok place ∧
      ((disk.names place).foldlM (loadEntry (store.directory name)) (Database.empty name) :
        StoreM Database) disk = .ok database after := by
  by_cases isDirectory : disk.isDirectory (store.directory name)
  · obtain ⟨place, located, directory⟩ := Disk.isDirectory_iff.mp isDirectory
    have leads := Disk.Leads.of_locate located directory
    exact ⟨place, leads, located, (loadDatabase_apply leads located).symm.trans done⟩
  · rw [loadDatabase_unknown (by simpa using isDirectory)] at done
    cases done

/-- Every table of a database that was loaded is regular, whatever the files hold. -/
theorem regular_of_loadDatabase (done : store.loadDatabase name disk = .ok database after) :
    ∀ table ∈ database.tables, table.Regular := by
  obtain ⟨place, -, -, folded⟩ := loadDatabase_eq_ok done
  refine Work.foldlM_preserves (fun database _ => ∀ table ∈ database.tables, table.Regular)
    ?_ (by simp [Database.empty]) folded
  intro entry _ database disk next after regular step
  rcases loadEntry_eq_ok step with ⟨rfl, -, -⟩ | ⟨stem, table, -, -, loaded, -, rfl⟩
  · exact regular
  · intro other member
    rcases Database.mem_place.mp member with rfl | old
    · obtain ⟨text, parsed, -, accepted, same⟩ := parse_of_loadTable loaded
      obtain ⟨⟨unreserved, distinct, wide⟩, -, -⟩ := Table.parse_eq_ok accepted
      rw [same]
      exact ⟨unreserved, distinct, wide⟩
    · exact regular other old

end Store

end TextTables
