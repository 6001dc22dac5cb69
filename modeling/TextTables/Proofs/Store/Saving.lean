import TextTables.Proofs.Disk.Standing
import TextTables.Proofs.Store.Shelf

/-!
# Writing and removing the files of a table

In a directory that holds tables, writing the files of one of them or removing them succeeds.
Making a new table fails on a name that is taken, and on names that are too long, of which the
ones that are too long for the second file only leave the first one behind.
-/

namespace TextTables

open Text

variable {disk : Disk} {directory : Path} {place : Location} {shelf : Shelf}

namespace DiskM

theorem writeText_entry (leads : disk.Leads directory place) {name : String}
    (proper : IsFileName name) (fits : directory.CanName name)
    (noDirectory : disk.node? (place ++ [name]) ≠ some .directory) (text : String) :
    writeText (directory.join name) text disk =
      .ok () (disk.put (place ++ [name]) (.file text.toUTF8)) := by
  simp [writeText_apply, leads.locate_join proper, fits, noDirectory]

theorem readText_entry (leads : disk.Leads directory place) {name text : String}
    (proper : IsFileName name) (fits : directory.CanName name)
    (file : disk.node? (place ++ [name]) = some (.file text.toUTF8)) :
    readText (directory.join name) disk = .ok text disk := by
  rw [readText_apply, leads.locate_join proper, if_pos fits]
  simp only [file, fromUTF8?_toUTF8]

theorem removeFile_entry (leads : disk.Leads directory place) {name : String} {content : ByteArray}
    (proper : IsFileName name) (fits : directory.CanName name)
    (file : disk.node? (place ++ [name]) = some (.file content)) :
    removeFile (directory.join name) disk = .ok () (disk.erase (place ++ [name])) := by
  simp [removeFile_apply, leads.locate_join proper, fits, file]

end DiskM

namespace Disk

variable {table : Table}

/-- Writing the first file of a table makes no directory of the second one. -/
theorem noDirectory_put_table
    (noOther : disk.node? (place ++ [table.name ++ counterEnding]) ≠ some .directory)
    (content : ByteArray) :
    (disk.put (place ++ [table.name ++ tableEnding]) (.file content)).node?
      (place ++ [table.name ++ counterEnding]) ≠ some .directory := by
  rw [node?_put _ (by simp), if_neg (by simpa using (table_ne_own_counter table.name).symm)]
  exact noOther

theorem KeepsDirectories.putTable
    (noDirectory : disk.node? (place ++ [table.name ++ tableEnding]) ≠ some .directory)
    (noOther : disk.node? (place ++ [table.name ++ counterEnding]) ≠ some .directory) :
    KeepsDirectories disk (disk.putTable place table) :=
  (KeepsDirectories.put (by simp) noDirectory _).trans
    (.put (by simp) (noDirectory_put_table noOther _) _)

end Disk

namespace StoreM

variable {Result : Type}

theorem ofDisk_ok {work : DiskM Result} {before after : Disk} {result : Result}
    (done : work before = .ok result after) : ofDisk work before = .ok result after := by
  simp [ofDisk, EStateM.adaptExcept, done]

theorem ofDisk_error {work : DiskM Result} {before after : Disk} {fault : Fault}
    (failed : work before = .error fault after) :
    ofDisk work before = .error (.disk fault) after := by
  simp [ofDisk, EStateM.adaptExcept, failed]

end StoreM

namespace Store

variable {store : Store} {database : String} {table : Table}

/-- The second file is written behind the first one, which leaves the directory where it is. -/
theorem saveTable_of_fileNames (leads : disk.Leads (store.directory database) place)
    (proper : IsFileName (table.name ++ tableEnding))
    (properCounter : IsFileName (table.name ++ counterEnding))
    (fits : (store.directory database).CanName (table.name ++ tableEnding))
    (fitsCounter : (store.directory database).CanName (table.name ++ counterEnding))
    (noDirectory : disk.node? (place ++ [table.name ++ tableEnding]) ≠ some .directory)
    (noOther : disk.node? (place ++ [table.name ++ counterEnding]) ≠ some .directory) :
    store.saveTable database table disk = .ok () (disk.putTable place table) := by
  have first := DiskM.writeText_entry leads proper fits noDirectory table.render
  have keeps := Disk.KeepsDirectories.put (by simp) noDirectory (.file table.render.toUTF8)
  have second := DiskM.writeText_entry (keeps.leads leads) properCounter fitsCounter
    (Disk.noDirectory_put_table noOther _) table.renderKey
  exact (Work.bind_ok (StoreM.ofDisk_ok first) _).trans (StoreM.ofDisk_ok second)

theorem saveTable_ok (leads : disk.Leads (store.directory database) place)
    (named : IsName table.name)
    (fits : (store.directory database).CanName (table.name ++ counterEnding))
    (noDirectory : disk.node? (place ++ [table.name ++ tableEnding]) ≠ some .directory)
    (noOther : disk.node? (place ++ [table.name ++ counterEnding]) ≠ some .directory) :
    store.saveTable database table disk = .ok () (disk.putTable place table) :=
  saveTable_of_fileNames leads named.isFileName_table named.isFileName_counter (fits.table named)
    fits noDirectory noOther

/-- Without room for the name of its second file, a table is left with the first one. -/
theorem saveTable_torn (leads : disk.LeadsStraight (store.directory database) place)
    (stray : IsStray (store.directory database) table.name)
    (noDirectory : disk.node? (place ++ [table.name ++ tableEnding]) ≠ some .directory) :
    store.saveTable database table disk = .error (.disk .nameTooLong)
      (disk.put (place ++ [table.name ++ tableEnding]) (.file table.render.toUTF8)) := by
  have first := DiskM.writeText_entry leads.toLeads stray.named.isFileName_table stray.fits
    noDirectory table.render
  have changed := Disk.ChangedAt.put disk (List.prefix_refl (place ++ [table.name ++ tableEnding]))
    (.file table.render.toUTF8)
  have second : DiskM.writeText (counterPath (store.directory database) table.name) table.renderKey
      (disk.put (place ++ [table.name ++ tableEnding]) (.file table.render.toUTF8)) =
        .error .nameTooLong
          (disk.put (place ++ [table.name ++ tableEnding]) (.file table.render.toUTF8)) := by
    have located := (leads.changed changed).locate_join stray.named.isFileName_counter
    rw [DiskM.writeText_apply, counterPath, located, if_neg stray.long]
  exact (Work.bind_ok (StoreM.ofDisk_ok first) _).trans (StoreM.ofDisk_error second)

/-- The file of a new table is made empty first. -/
theorem createFile_ok (leads : disk.LeadsStraight directory place) (named : IsName table.name)
    (fits : directory.CanName (table.name ++ tableEnding))
    (free : disk.node? (place ++ [table.name ++ tableEnding]) = none) :
    unlessTaken (DiskM.createFile (tablePath directory table.name)) (.duplicateTable table.name)
        disk = .ok () (disk.put (place ++ [table.name ++ tableEnding]) (.file .empty)) ∧
      (disk.put (place ++ [table.name ++ tableEnding]) (.file .empty)).LeadsStraight directory
        place ∧
      (disk.put (place ++ [table.name ++ tableEnding]) (.file .empty)).node?
        (place ++ [table.name ++ tableEnding]) ≠ some .directory := by
  have located := leads.locate_join named.isFileName_table
  have created : DiskM.createFile (tablePath directory table.name) disk =
      .ok () (disk.put (place ++ [table.name ++ tableEnding]) (.file .empty)) := by
    simp [DiskM.createFile_apply, tablePath, located, fits, free]
  refine ⟨by simp [unlessTaken, created], ?_, ?_⟩
  · exact leads.changed (Disk.ChangedAt.put disk (List.prefix_refl _) _)
  · rw [Disk.node?_put _ (by simp), if_pos rfl]
    simp

/-- A name that is taken by a file, or too long for the first file, changes nothing. -/
theorem createTable_refused (leads : disk.LeadsStraight (store.directory database) place)
    (named : IsName table.name)
    (refused : ¬ (store.directory database).CanName (table.name ++ tableEnding) ∨
      disk.node? (place ++ [table.name ++ tableEnding]) ≠ none) :
    ∃ error, store.createTable database table disk = .error error disk := by
  have located := leads.locate_join named.isFileName_table
  have failed : ∃ error, unlessTaken
      (DiskM.createFile (tablePath (store.directory database) table.name))
      (.duplicateTable table.name) disk = .error error disk := by
    by_cases fits : (store.directory database).CanName (table.name ++ tableEnding)
    · have taken := refused.resolve_left (not_not_intro fits)
      obtain ⟨node, stands⟩ := Option.ne_none_iff_exists'.mp taken
      exact ⟨.duplicateTable table.name, by
        simp [unlessTaken, DiskM.createFile_apply, tablePath, located, fits, stands]⟩
    · exact ⟨.disk .nameTooLong, by
        simp [unlessTaken, DiskM.createFile_apply, tablePath, located, fits]⟩
  obtain ⟨error, failed⟩ := failed
  exact ⟨error, Work.bind_error failed _⟩

/-- A table of which only the first file has room leaves a stray behind. -/
theorem createTable_torn (leads : disk.LeadsStraight (store.directory database) place)
    (holds : disk.Holds (store.directory database) place shelf)
    (stray : IsStray (store.directory database) table.name)
    (free : disk.node? (place ++ [table.name ++ tableEnding]) = none) :
    ∃ after, store.createTable database table disk = .error (.disk .nameTooLong) after ∧
      Disk.ChangedBelow place disk after ∧
      after.Holds (store.directory database) place (shelf.strand table.name) := by
  obtain ⟨created, onward, isFile⟩ := createFile_ok leads stray.named stray.fits free
  refine ⟨_, (Work.bind_ok created _).trans (saveTable_torn onward stray isFile), ?_, ?_⟩
  · exact (Disk.ChangedBelow.put _ _ _ _).trans (Disk.ChangedBelow.put _ _ _ _)
  · refine (holds.strand stray table.render.toUTF8).congr fun file rest => ?_
    rw [Disk.node?_put _ (by simp), Disk.node?_put _ (by simp), Disk.node?_put _ (by simp)]
    split <;> rfl

/-- A table of which both files have room is made. -/
theorem createTable_ok (leads : disk.LeadsStraight (store.directory database) place)
    (holds : disk.Holds (store.directory database) place shelf) (sound : table.Sound)
    (fresh : ∀ other ∈ shelf.tables, other.key ≠ table.key)
    (fits : (store.directory database).CanName (table.name ++ counterEnding))
    (free : disk.node? (place ++ [table.name ++ tableEnding]) = none) :
    ∃ after, store.createTable database table disk = .ok () after ∧
      Disk.ChangedBelow place disk after ∧
      after.Holds (store.directory database) place (shelf.insert table) := by
  have named := sound.named
  obtain ⟨created, onward, isFile⟩ := createFile_ok leads named (fits.table named) free
  have noOther : (disk.put (place ++ [table.name ++ tableEnding]) (.file .empty)).node?
      (place ++ [table.name ++ counterEnding]) ≠ some .directory := by
    have distinct := (table_ne_counter named table.name).symm
    rw [Disk.node?_put _ (by simp), if_neg (by simpa using distinct)]
    exact holds.entry_ne_directory _
  have saved := saveTable_ok onward.toLeads named fits isFile noOther
  refine ⟨_, (Work.bind_ok created _).trans saved, ?_, ?_⟩
  · exact (Disk.ChangedBelow.put _ _ _ _).trans (Disk.ChangedBelow.putTable _ _ _)
  · have whole := holds.putTable sound fits (holds.sorted.place fresh) fun other => by
      rw [Database.mem_place]
      exact or_congr_right ⟨fun member => ⟨member, fresh other member⟩, And.left⟩
    refine whole.congr fun file rest => ?_
    rw [Disk.node?_putTable, Disk.node?_putTable, Disk.node?_put _ (by simp)]
    split
    · rfl
    · split <;> rfl

/-- Of a new table either both files are made, or only the first one, or nothing changes. -/
theorem createTable_cases (leads : disk.LeadsStraight (store.directory database) place)
    (holds : disk.Holds (store.directory database) place shelf) (sound : table.Sound)
    (fresh : ∀ other ∈ shelf.tables, other.key ≠ table.key) :
    (∃ after, store.createTable database table disk = .ok () after ∧
        Disk.ChangedBelow place disk after ∧
        (store.directory database).CanName (table.name ++ counterEnding) ∧
        after.Holds (store.directory database) place (shelf.insert table)) ∨
      (∃ error after, store.createTable database table disk = .error error after ∧
        Disk.ChangedBelow place disk after ∧
        ¬ (store.directory database).CanName (table.name ++ counterEnding) ∧
        after.Holds (store.directory database) place (shelf.strand table.name)) ∨
      ∃ error, store.createTable database table disk = .error error disk := by
  by_cases refused : ¬ (store.directory database).CanName (table.name ++ tableEnding) ∨
      disk.node? (place ++ [table.name ++ tableEnding]) ≠ none
  · exact .inr (.inr (createTable_refused leads sound.named refused))
  · push Not at refused
    obtain ⟨room, free⟩ := refused
    by_cases fits : (store.directory database).CanName (table.name ++ counterEnding)
    · obtain ⟨after, made, changed, whole⟩ := createTable_ok leads holds sound fresh fits free
      exact .inl ⟨after, made, changed, fits, whole⟩
    · obtain ⟨after, torn, changed, stranded⟩ :=
        createTable_torn leads holds ⟨sound.named, room, fits⟩ free
      exact .inr (.inl ⟨_, after, torn, changed, fits, stranded⟩)

/-- Both files of a table that is held are removed. -/
theorem deleteTable_holds (leads : disk.LeadsStraight (store.directory database) place)
    (holds : disk.Holds (store.directory database) place shelf) (member : table ∈ shelf.tables) :
    ∃ after, store.deleteTable database table.name disk = .ok () after ∧
      Disk.ChangedBelow place disk after ∧
      after.Holds (store.directory database) place (shelf.remove table) := by
  have named := (holds.sound table member).named
  have fits := holds.fits table member
  have first := DiskM.removeFile_entry leads.toLeads named.isFileName_table (fits.table named)
    (holds.tableFile table member)
  have changed : Disk.ChangedAt (place ++ [table.name ++ tableEnding]) disk
      (disk.erase (place ++ [table.name ++ tableEnding])) :=
    Disk.ChangedAt.erase disk (by simp) (List.prefix_refl _)
  have distinct := table_ne_counter named table.name
  have kept : (disk.erase (place ++ [table.name ++ tableEnding])).node?
      (place ++ [table.name ++ counterEnding]) = some (.file table.renderKey.toUTF8) := by
    rw [Disk.node?_erase _ (by simp), holds.counterFile table member]
    simp [distinct]
  have second := DiskM.removeFile_entry (leads.changed changed).toLeads named.isFileName_counter
    fits kept
  refine ⟨_, (Work.bind_ok (StoreM.ofDisk_ok first) _).trans ?_, ?_, holds.eraseTable member⟩
  · simp only [counterPath, second, Disk.eraseTable]
  · exact (Disk.ChangedBelow.erase _ _ _).trans (Disk.ChangedBelow.erase _ _ _)

end Store

end TextTables
