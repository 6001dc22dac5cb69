import TextTables.Proofs.Store.Confinement

/-!
# Tables that stay stored

A table that was saved has both its files, and keeps them until it or its database is removed. As
long as it has them, saving it anew or removing it is done whole or not begun, and whenever its
database is read, it is read back as it was saved.
-/

namespace TextTables

open Location Work Text

/-- The directory holds the table file, and the second file if it was not lost. Read from them is
the table, but with its rows counted in the place of its last primary key if that was lost. -/
structure Disk.Offers (disk : Disk) (directory : Path) (place : Location)
    (table loaded : Table) : Prop where
  sound : table.Sound
  fits : directory.CanName (table.name ++ counterEnding)
  tableFile : disk.node? (place ++ [table.name ++ tableEnding]) =
    some (.file table.render.toUTF8)
  counter : (disk.node? (place ++ [table.name ++ counterEnding]) =
      some (.file table.renderKey.toUTF8) ∧ loaded = table) ∨
    (disk.node? (place ++ [table.name ++ counterEnding]) = none ∧
      loaded = { table with lastKey := table.rows.length })

namespace Disk

variable {disk after : Disk} {root : Path} {top : Location} {database other table name : String}

namespace WorkedOn

/-- Work on a table leaves alone what is no file of it. -/
theorem file_eq (worked : WorkedOn root top other name disk after) {file : String}
    (apart : database = other → ¬ IsFileOf name file) :
    after.node? (top ++ [database] ++ [file]) = disk.node? (top ++ [database] ++ [file]) := by
  refine worked.changed.outside _ fun member => ?_
  simp only [filesOf, List.mem_cons, List.append_assoc, List.append_cancel_left_eq,
    List.singleton_append, List.cons.injEq, and_true, List.not_mem_nil, or_false] at member
  rcases member with ⟨same, spelled⟩ | ⟨same, spelled⟩
  · exact apart same (.inl spelled)
  · exact apart same (.inr spelled)

theorem tableFile_eq (worked : WorkedOn root top other name disk after) (named : IsName table)
    (apart : database = other → table ≠ name) :
    after.node? (top ++ [database] ++ [table ++ tableEnding]) =
      disk.node? (top ++ [database] ++ [table ++ tableEnding]) := by
  refine worked.file_eq fun same isFile => ?_
  rcases isFile with spelled | spelled
  · exact apart same (append_ending_inj spelled)
  · exact table_ne_counter named name spelled

theorem counterFile_eq (worked : WorkedOn root top other name disk after) (named : IsName name)
    (apart : database = other → table ≠ name) :
    after.node? (top ++ [database] ++ [table ++ counterEnding]) =
      disk.node? (top ++ [database] ++ [table ++ counterEnding]) := by
  refine worked.file_eq fun same isFile => ?_
  rcases isFile with spelled | spelled
  · exact table_ne_counter named table spelled.symm
  · exact apart same (append_ending_inj spelled)

end WorkedOn

/-- The removal of a database leaves alone what stands in another one. -/
theorem Cut.file_eq (cut : Cut root top other disk after) (apart : database ≠ other)
    (file : String) :
    after.node? (top ++ [database] ++ [file]) = disk.node? (top ++ [database] ++ [file]) := by
  refine cut.reduced.outside _ fun under => ?_
  rw [List.append_assoc, List.prefix_append_right_inj, List.singleton_append,
    List.cons_prefix_cons] at under
  exact apart under.1.symm

end Disk

namespace Disk.Stores

variable {disk after : Disk} {root : Path} {top : Location} {database other : String}
  {table : Table}

theorem congr {directory : Path} {place : Location} (stores : disk.Stores directory place table)
    (first : after.node? (place ++ [table.name ++ tableEnding]) =
      disk.node? (place ++ [table.name ++ tableEnding]))
    (second : after.node? (place ++ [table.name ++ counterEnding]) =
      disk.node? (place ++ [table.name ++ counterEnding])) :
    after.Stores directory place table :=
  ⟨stores.sound, stores.fits, first.trans stores.tableFile, second.trans stores.counterFile⟩

theorem tableFile_stands {directory : Path} {place : Location}
    (stores : disk.Stores directory place table) :
    disk.node? (place ++ [table.name ++ tableEnding]) ≠ none := by
  rw [stores.tableFile]
  exact Option.some_ne_none _

theorem counterFile_stands {directory : Path} {place : Location}
    (stores : disk.Stores directory place table) :
    disk.node? (place ++ [table.name ++ counterEnding]) ≠ none := by
  rw [stores.counterFile]
  exact Option.some_ne_none _

theorem offers {directory : Path} {place : Location} (stores : disk.Stores directory place table) :
    disk.Offers directory place table table :=
  ⟨stores.sound, stores.fits, stores.tableFile, .inl ⟨stores.counterFile, rfl⟩⟩

theorem grown (stores : disk.Stores (root.join database) (top ++ [database]) table)
    (grown : Grown root top disk after) :
    after.Stores (root.join database) (top ++ [database]) table :=
  stores.congr (grown.extended.kept _ stores.tableFile_stands)
    (grown.extended.kept _ stores.counterFile_stands)

/-- Work on another table, or on a table of another database, leaves the files alone. -/
theorem worked (stores : disk.Stores (root.join database) (top ++ [database]) table)
    {name : String} (named : IsName name) (worked : WorkedOn root top other name disk after)
    (apart : database = other → table.name ≠ name) :
    after.Stores (root.join database) (top ++ [database]) table :=
  stores.congr (worked.tableFile_eq stores.sound.named apart)
    (worked.counterFile_eq named apart)

/-- Removing another database leaves the files alone. -/
theorem cut_other (stores : disk.Stores (root.join database) (top ++ [database]) table)
    (cut : Cut root top other disk after) (apart : database ≠ other) :
    after.Stores (root.join database) (top ++ [database]) table :=
  stores.congr (cut.file_eq apart _) (cut.file_eq apart _)

/-- What a removal leaves of the files is as it was. -/
theorem cut (stores : disk.Stores (root.join database) (top ++ [database]) table)
    (cut : Cut root top other disk after)
    (first : after.node? (top ++ [database] ++ [table.name ++ tableEnding]) ≠ none)
    (second : after.node? (top ++ [database] ++ [table.name ++ counterEnding]) ≠ none) :
    after.Stores (root.join database) (top ++ [database]) table :=
  stores.congr (cut.reduced.kept _ first) (cut.reduced.kept _ second)

end Disk.Stores

/-- Where only files change, every directory stays one. -/
theorem Disk.ChangedOn.keepsDirectories {places : List Location} {disk after : Disk}
    (changed : ChangedOn places disk after)
    (files : ∀ place ∈ places, disk.node? place ≠ some .directory) :
    KeepsDirectories disk after := by
  refine ⟨changed.home, fun place directory => ?_⟩
  rw [changed.outside, directory]
  exact fun member => files place member directory

namespace Store

open StoreM (ofDisk)

variable {store : Store} {top : Location} {database name : String} {table changed : Table}
  {disk after : Disk} {error : Error}

/-- A table that was saved is stored. -/
theorem saveTable_stores (orderly : disk.Orderly store.root top) (named : IsName database)
    (sound : table.Sound) (done : store.saveTable database table disk = .ok () after) :
    after.Stores (store.directory database) (top ++ [database]) table := by
  obtain ⟨⟨⟩, middle, first, second⟩ := Work.bind_eq_ok_iff.mp done
  obtain ⟨place, located, noDirectory, rfl⟩ := DiskM.writeText_eq_ok (StoreM.ofDisk_eq_ok first)
  have worked := orderly.write named sound.named (.inl rfl) located noDirectory
    table.render.toUTF8
  obtain ⟨-, -, rfl⟩ := orderly.leads_of_locate named sound.named.isFileName_table located
  obtain ⟨other, found, noOther, rfl⟩ := DiskM.writeText_eq_ok (StoreM.ofDisk_eq_ok second)
  obtain ⟨-, fits, rfl⟩ :=
    worked.orderly.leads_of_locate named sound.named.isFileName_counter found
  have distinct := table_ne_counter sound.named table.name
  refine ⟨sound, fits, ?_, ?_⟩
  · rw [Disk.node?_put _ (by simp), if_neg (by simpa using distinct), Disk.node?_put _ (by simp),
      if_pos rfl]
  · rw [Disk.node?_put _ (by simp), if_pos rfl]

theorem createTable_stores (orderly : disk.Orderly store.root top) (named : IsName database)
    (sound : table.Sound) (done : store.createTable database table disk = .ok () after) :
    after.Stores (store.directory database) (top ++ [database]) table := by
  obtain ⟨⟨⟩, middle, first, second⟩ := Work.bind_eq_ok_iff.mp done
  obtain ⟨place, located, free, rfl⟩ := DiskM.createFile_eq_ok (unlessTaken_eq_ok first)
  have worked := orderly.write named sound.named (.inl rfl) located
    (Disk.noDirectory_of_free free) .empty
  exact saveTable_stores worked.orderly named sound second

theorem saveTable_unchanged (orderly : disk.Orderly store.root top) (named : IsName database)
    (stores : disk.Stores (store.directory database) (top ++ [database]) table)
    (same : changed.name = table.name)
    (failed : store.saveTable database changed disk = .error error after) : after = disk := by
  rcases saveTable_eq_error failed with ⟨unchanged, -⟩ | ⟨place, located, -, -⟩
  · exact unchanged
  · -- The first file was written, so the second one, which has been there, is written too.
    have proper := stores.sound.named
    rw [← same] at proper
    obtain ⟨leads, -, -⟩ := orderly.leads_of_locate named proper.isFileName_table located
    have saved := saveTable_ok leads proper (same ▸ stores.fits)
      (by rw [same, stores.tableFile]; exact nofun)
      (by rw [same, stores.counterFile]; exact nofun)
    cases saved.symm.trans failed

/-- A table that is saved as it was, behind a change, has both its files back. -/
theorem saveTable_restores {final : Disk} (orderly : disk.Orderly store.root top)
    (named : IsName database)
    (stores : disk.Stores (store.directory database) (top ++ [database]) table)
    (same : changed.name = table.name)
    (saved : store.saveTable database changed disk = .ok () after)
    (restored : store.saveTable database table after = .ok () final) : disk.Same final := by
  have proper := stores.sound.named
  have first : Disk.WorkedOn store.root top database table.name disk after := by
    have changedNamed : IsName changed.name := same ▸ proper
    have worked := saveTable_workedOn orderly named changedNamed
    rwa [saved, same] at worked
  have second : Disk.WorkedOn store.root top database table.name after final := by
    have worked := saveTable_workedOn first.orderly named proper
    rwa [restored] at worked
  have back := saveTable_stores first.orderly named stores.sound restored
  intro place
  by_cases member : place ∈ Disk.filesOf top database table.name
  · rcases List.mem_pair.mp member with rfl | rfl
    · exact back.tableFile.trans stores.tableFile.symm
    · exact back.counterFile.trans stores.counterFile.symm
  · exact (second.changed.outside _ member).trans (first.changed.outside _ member)

theorem deleteTable_unchanged (orderly : disk.Orderly store.root top) (named : IsName database)
    (stores : disk.Stores (store.directory database) (top ++ [database]) table)
    (failed : store.deleteTable database table.name disk = .error error after) : after = disk := by
  have proper := stores.sound.named
  rcases Work.bind_eq_error_iff.mp failed with early | ⟨⟨⟩, middle, first, late⟩
  · obtain ⟨fault, stopped⟩ := StoreM.ofDisk_eq_error early
    exact (DiskM.removeFile_eq_error stopped).1
  · obtain ⟨place, content, located, file, rfl⟩ :=
      DiskM.removeFile_eq_ok (StoreM.ofDisk_eq_ok first)
    have worked := orderly.remove named proper (.inl rfl) located (by rw [file]; exact nofun)
    obtain ⟨leads, -, rfl⟩ := orderly.leads_of_locate named proper.isFileName_table located
    have keeps : disk.KeepsDirectories _ := worked.changed.keepsDirectories fun place member => by
      rcases List.mem_pair.mp member with rfl | rfl
      · rw [stores.tableFile]
        exact nofun
      · rw [stores.counterFile]
        exact nofun
    have distinct := table_ne_counter proper table.name
    have kept : (disk.erase (top ++ [database] ++ [table.name ++ tableEnding])).node?
        (top ++ [database] ++ [table.name ++ counterEnding]) =
          some (.file table.renderKey.toUTF8) := by
      rw [Disk.node?_erase _ (by simp), if_neg (by simpa using distinct), stores.counterFile]
    have leadsStill : (disk.erase (top ++ [database] ++ [table.name ++ tableEnding])).Leads
        (store.directory database) (top ++ [database]) := keeps.leads leads
    have second := DiskM.removeFile_entry leadsStill proper.isFileName_counter stores.fits kept
    simp only [counterPath, second] at late
    cases late

theorem loadTable_offers {loaded read : Table}
    (leads : disk.Leads (store.directory database) (top ++ [database]))
    (offers : disk.Offers (store.directory database) (top ++ [database]) table loaded)
    (done : loadTable (store.directory database) table.name disk = .ok read after) :
    read = loaded := by
  have named := offers.sound.named
  rcases offers.counter with ⟨kept, rfl⟩ | ⟨lost, rfl⟩
  · have stores : disk.Stores (store.directory database) (top ++ [database]) loaded :=
      ⟨offers.sound, offers.fits, offers.tableFile, kept⟩
    by_cases short : loaded.HasShortKey
    · cases (loadTable_ok leads stores short).symm.trans done
      rfl
    · obtain ⟨error, failed⟩ := loadTable_long leads stores short
      cases failed.symm.trans done
  · obtain ⟨text, parsed, found, accepted, counted⟩ := loadTable_eq_ok done
    have stored := DiskM.readText_entry leads named.isFileName_table (offers.fits.table named)
      offers.tableFile
    cases stored.symm.trans found
    rw [Table.parse_render offers.sound.printable, named.lower] at accepted
    cases accepted
    have missing : readCounter (counterPath (store.directory database) table.name) disk =
        .ok none disk := by
      have located := (leads.locate_join named.isFileName_counter).trans (if_pos offers.fits)
      simp only [readCounter, counterPath, DiskM.readText_apply, located, lost]
    rcases counted with ⟨key, some, -, -⟩ | ⟨-, same, -⟩
    · cases missing.symm.trans some
    · exact same

/-- What has been read stays. -/
theorem mem_of_loadEntry_read {directory : Path} {sofar next : Database} {entry : String}
    {loaded : Table} (read : loaded ∈ sofar.tables)
    (done : loadEntry directory sofar entry disk = .ok next after) : loaded ∈ next.tables := by
  rcases loadEntry_eq_ok done with ⟨rfl, -, -⟩ | ⟨stem, other, -, -, -, -, rfl⟩
  · exact read
  · exact Database.mem_place.mpr (.inr read)

/-- The entry of a table brings the table that is offered. -/
theorem mem_of_loadEntry {sofar next : Database} {loaded : Table}
    (leads : disk.Leads (store.directory database) (top ++ [database]))
    (offers : disk.Offers (store.directory database) (top ++ [database]) table loaded)
    (done : loadEntry (store.directory database) sofar (table.name ++ tableEnding) disk =
      .ok next after) : loaded ∈ next.tables := by
  have named := offers.sound.named
  rcases loadEntry_eq_ok done with ⟨-, -, noFile⟩ | ⟨stem, read, isStem, -, reading, -, rfl⟩
  · have located := (leads.locate_join named.isFileName_table).trans
      (if_pos (offers.fits.table named))
    have isFile := Disk.isFile_iff.mpr ⟨_, _, located, offers.tableFile⟩
    rw [noFile table.name (stem?_table named)] at isFile
    cases isFile
  · obtain rfl : table.name = stem := Option.some.inj ((stem?_table named).symm.trans isStem)
    exact Database.mem_place.mpr (.inl (loadTable_offers leads offers reading).symm)

/-- Reading another entry leaves what is offered. -/
theorem loadEntry_offers {sofar next : Database} {entry : String} {loaded : Table}
    (orderly : disk.Orderly store.root top) (named : IsName database) (proper : IsFileName entry)
    (offers : disk.Offers (store.directory database) (top ++ [database]) table loaded)
    (other : entry ≠ table.name ++ tableEnding)
    (done : loadEntry (store.directory database) sofar entry disk = .ok next after) :
    after.Offers (store.directory database) (top ++ [database]) table loaded := by
  have restores := loadEntry_restores sofar orderly named proper
  rw [done] at restores
  rcases restores with same | ⟨stem, content, -, rfl, -, -, same⟩
  · obtain rfl : after = disk := same
    exact offers
  · obtain rfl : after = _ := same
    have apart : table.name ≠ stem := fun same => other (by rw [same])
    refine ⟨offers.sound, offers.fits, ?_, ?_⟩
    · rw [Disk.node?_put _ (by simp), if_neg, offers.tableFile]
      simpa using table_ne_counter offers.sound.named stem
    · rw [Disk.node?_put _ (by simp), if_neg]
      · exact offers.counter
      · intro here
        have spelled := List.singleton_inj.mp (List.append_inj' here rfl).2
        exact apart (append_ending_inj spelled)

theorem mem_of_loadEntries {entries : List String} {sofar final : Database} {loaded : Table}
    (orderly : disk.Orderly store.root top) (named : IsName database)
    (leads : disk.Leads (store.directory database) (top ++ [database]))
    (proper : ∀ entry ∈ entries, IsFileName entry)
    (present : loaded ∈ sofar.tables ∨ (table.name ++ tableEnding ∈ entries ∧
      disk.Offers (store.directory database) (top ++ [database]) table loaded))
    (done : (entries.foldlM (loadEntry (store.directory database)) sofar : StoreM Database) disk =
      .ok final after) : loaded ∈ final.tables := by
  induction entries generalizing sofar disk with
  | nil =>
      cases done
      exact present.resolve_right fun listed => List.not_mem_nil listed.1
  | cons entry rest inductionHypothesis =>
      rw [List.foldlM_cons] at done
      obtain ⟨next, middle, step, others⟩ := Work.bind_eq_ok_iff.mp done
      have here := proper entry List.mem_cons_self
      have grown := loadEntry_grown sofar orderly named here
      rw [step] at grown
      refine inductionHypothesis grown.orderly (grown.extended.keepsDirectories.leads leads)
        (fun other member => proper other (.tail _ member)) ?_ others
      rcases present with old | ⟨listed, offers⟩
      · exact .inl (mem_of_loadEntry_read old step)
      · by_cases first : entry = table.name ++ tableEnding
        · subst first
          exact .inl (mem_of_loadEntry leads offers step)
        · refine .inr ⟨(List.mem_cons.mp listed).resolve_left (Ne.symm first), ?_⟩
          exact loadEntry_offers orderly named here offers first step

/-- The entries of the directory that is read, and what is read from them. -/
theorem loadDatabase_entries {final : Database} (orderly : disk.Orderly store.root top)
    (named : IsName database) (done : store.loadDatabase database disk = .ok final after) :
    disk.Leads (store.directory database) (top ++ [database]) ∧
      (∀ entry ∈ disk.names (top ++ [database]), IsFileName entry) ∧
      ((disk.names (top ++ [database])).foldlM (loadEntry (store.directory database))
        (Database.empty database) : StoreM Database) disk = .ok final after := by
  obtain ⟨place, leads, located, folded⟩ := loadDatabase_eq_ok done
  obtain rfl := orderly.eq_of_locate named located
  exact ⟨leads, fun entry => orderly.isFileName_of_mem_names, folded⟩

/-- A table that is offered is among those that are read. -/
theorem mem_of_loadDatabase {final : Database} {loaded : Table}
    (orderly : disk.Orderly store.root top) (named : IsName database)
    (offers : disk.Offers (store.directory database) (top ++ [database]) table loaded)
    (done : store.loadDatabase database disk = .ok final after) : loaded ∈ final.tables := by
  obtain ⟨leads, proper, folded⟩ := loadDatabase_entries orderly named done
  have listed : table.name ++ tableEnding ∈ disk.names (top ++ [database]) := by
    rw [Disk.mem_names_iff, offers.tableFile]
    exact Option.some_ne_none _
  exact mem_of_loadEntries orderly named leads proper (.inr ⟨listed, offers⟩) folded

end Store

/-- The names are those of files, and each of them is that of one table. -/
structure Database.WellNamed (database : Database) : Prop where
  named : IsName database.name
  sorted : Sorted database.tables
  tables : ∀ table ∈ database.tables, IsName table.name

theorem Database.WellNamed.update {database : Database} {changed : Table}
    (wellNamed : database.WellNamed) (named : IsName changed.name)
    (present : ∃ old ∈ database.tables, old.key = changed.key) :
    (database.update changed).WellNamed := by
  refine ⟨wellNamed.named, wellNamed.sorted.update changed, fun table member => ?_⟩
  rcases (mem_update present).mp member with rfl | ⟨old, -⟩
  · exact named
  · exact wellNamed.tables table old

theorem Database.WellNamed.place {database : Database} {table : Table}
    (wellNamed : database.WellNamed) (named : IsName table.name)
    (fresh : ∀ other ∈ database.tables, other.key ≠ table.key) :
    ({ database with tables := Database.place table database.tables } : Database).WellNamed := by
  refine ⟨wellNamed.named, wellNamed.sorted.place fresh, fun other member => ?_⟩
  rcases mem_place.mp member with rfl | old
  · exact named
  · exact wellNamed.tables other old

theorem Database.WellNamed.filter {database : Database} (wellNamed : database.WellNamed)
    (test : Table → Bool) :
    ({ database with tables := database.tables.filter test } : Database).WellNamed :=
  ⟨wellNamed.named, wellNamed.sorted.sublist List.filter_sublist,
    fun table member => wellNamed.tables table (List.mem_of_mem_filter member)⟩

/-- Databases that are read from an orderly disk are well named. -/
theorem Store.wellNamed_of_loadDatabase {store : Store} {top : Location} {disk after : Disk}
    {name : String} {final : Database} (orderly : disk.Orderly store.root top)
    (named : IsName name) (done : store.loadDatabase name disk = .ok final after) :
    final.WellNamed ∧ final.name = name := by
  obtain ⟨-, proper, folded⟩ := loadDatabase_entries orderly named done
  have start : (Database.empty name).name = name := named.lower
  have all : (final.WellNamed ∧ final.name = name) ∧ after.Orderly store.root top := by
    refine Work.foldlM_preserves
      (fun sofar disk => (sofar.WellNamed ∧ sofar.name = name) ∧ disk.Orderly store.root top)
      ?_ ⟨⟨⟨start.symm ▸ named, .nil, by simp [Database.empty]⟩, start⟩, orderly⟩ folded
    rintro entry member sofar disk next after ⟨⟨fine, called⟩, orderly⟩ step
    have grown := loadEntry_grown sofar orderly named (proper entry member)
    rw [step] at grown
    refine ⟨?_, grown.orderly⟩
    rcases loadEntry_eq_ok step with ⟨rfl, -, -⟩ | ⟨stem, table, isStem, isFile, loaded, fresh, rfl⟩
    · exact ⟨fine, called⟩
    · refine ⟨⟨fine.named, fine.sorted.place fresh, fun other inside => ?_⟩, called⟩
      rcases Database.mem_place.mp inside with rfl | old
      · obtain ⟨place, content, located, stands⟩ := Disk.isFile_iff.mp isFile
        obtain ⟨-, -, rfl⟩ := orderly.leads_of_locate named (proper entry member) located
        obtain ⟨table, tableNamed, rfl | rfl⟩ := orderly.files name entry content stands
        · obtain rfl := Option.some.inj ((stem?_table tableNamed).symm.trans isStem)
          obtain ⟨text, parsed, -, accepted, same⟩ := parse_of_loadTable loaded
          rw [same, (Table.parse_eq_ok accepted).2.1, tableNamed.lower]
          exact tableNamed
        · rw [stem?_counter] at isStem
          cases isStem
      · exact fine.tables other old
  exact all.1

end TextTables
