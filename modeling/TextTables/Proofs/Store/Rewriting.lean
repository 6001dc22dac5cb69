import TextTables.Proofs.Store.RoundTrip

/-!
# Directories whose tables are written again

A table is read from a file that is named after its name in any letter case, and is written to the
file that is named in lower case. So a table whose file was named otherwise comes to have two files,
and its directory can no longer be read. The other tables are read as they were written, but for
rows of one empty cell. Removing a table takes away the file that is named in lower case alone.
-/

namespace TextTables

open Location Text

namespace Disk

variable {start now disk : Disk} {directory : Path} {place : Location} {written : List String}
  {database : Database} {table : Table} {name : String}

/-- Saving a table makes the file that is named after it a table file. -/
theorem lists_iff_of_save {before after : Disk} (holds : after.HoldsTable directory place table)
    (same : SameBut place [table.name ++ tableEnding, table.name ++ counterEnding] before after)
    (stem : String) :
    after.Lists directory place stem ↔ before.Lists directory place stem ∨ stem = table.name := by
  have listed : after.Lists directory place table.name :=
    ⟨holds.named.isStem, holds.rows.fits, _, holds.rows.stored⟩
  by_cases own : stem = table.name
  · exact iff_of_true (own ▸ listed) (.inr own)
  · rw [or_iff_left own]
    exact same.lists_iff fun isStem => isStem.not_mem_files own

/-- Stems that name the same table are the same. -/
def TellsApart (disk : Disk) (directory : Path) (place : Location) : Prop :=
  ∀ first second, disk.Lists directory place first → disk.Lists directory place second →
    lowercase first = lowercase second → first = second

/-- How a directory stands that a database was read from, once its tables of the given names were
written again. The database holds what was read and written. -/
structure Rewritten (start : Disk) (directory : Path) (place : Location) (written : List String)
    (database : Database) (now : Disk) : Prop where
  keeps : KeepsDirectories start now
  catalog : now.Catalog directory place
  sorted : Database.Sorted database.tables
  lists : ∀ stem, now.Lists directory place stem ↔
    start.Lists directory place stem ∨ stem ∈ written
  origin : ∀ table ∈ database.tables, ∃ stem, start.Lists directory place stem ∧
    table.name = lowercase stem
  kept : ∀ stem, start.Lists directory place stem → lowercase stem ∉ written →
    ∃ table ∈ database.tables, now.Reads directory place stem table
  saved : ∀ name ∈ written, ∃ table ∈ database.tables, table.name = name ∧
    now.HoldsTable directory place table

theorem Carries.rewritten (carries : disk.Carries directory place database)
    (catalog : disk.Catalog directory place) :
    Rewritten disk directory place [] database disk where
  keeps := .refl disk
  catalog := catalog
  sorted := carries.sorted
  lists stem := by simp
  origin table member := by
    obtain ⟨stem, listed, reads⟩ := carries.stored table member
    exact ⟨stem, listed, reads.name_eq⟩
  kept stem listed _ := carries.readable stem listed
  saved := by simp

namespace Rewritten

theorem key_eq (rewritten : Rewritten start directory place written database now)
    (member : table ∈ database.tables) : table.key = table.name := by
  obtain ⟨stem, -, named⟩ := rewritten.origin table member
  rw [Table.key, named, lowercase_lowercase]

theorem isName (rewritten : Rewritten start directory place written database now)
    (member : name ∈ written) : IsName name := by
  obtain ⟨table, -, rfl, holds⟩ := rewritten.saved name member
  exact holds.named

/-- A table of the database can be changed and saved under its name. -/
theorem save {changed : Table} (rewritten : Rewritten start directory place written database now)
    (member : table ∈ database.tables) (same : changed.name = table.name)
    (named : IsName table.name) (fits : directory.CanName (table.name ++ counterEnding))
    (noDirectory : ∀ file ∈ [table.name ++ tableEnding, table.name ++ counterEnding],
      now.node? (place ++ [file]) ≠ some .directory) :
    Rewritten start directory place (written ++ [table.name]) (database.update changed)
      (now.putTable place changed) := by
  rw [← same] at named fits noDirectory ⊢
  obtain ⟨keeps, catalog⟩ := rewritten.catalog.putTable named noDirectory
  have holds := now.holdsTable_putTable place named fits
  have others := sameBut_putTable now place changed
  have keys : table.key = changed.key := by rw [Table.key, Table.key, same]
  have name_of : ∀ other ∈ database.tables, other.key = changed.key →
      other.name = changed.name := by
    intro other inside alike
    rw [← rewritten.key_eq inside, alike, ← keys, rewritten.key_eq member, same]
  have members : ∀ other, other ∈ (database.update changed).tables ↔
      other = changed ∨ (other ∈ database.tables ∧ other.key ≠ changed.key) :=
    fun other => Database.mem_update ⟨table, member, keys⟩
  refine ⟨rewritten.keeps.trans keeps, catalog, rewritten.sorted.update changed, fun stem => ?_,
    fun other inside => ?_, fun stem listed untouched => ?_, fun name inside => ?_⟩
  · rw [lists_iff_of_save holds others, rewritten.lists, List.mem_append, List.mem_singleton,
      or_assoc]
  · rcases (members other).mp inside with rfl | ⟨old, -⟩
    · rw [same]
      exact rewritten.origin table member
    · exact rewritten.origin other old
  · rw [List.mem_append, List.mem_singleton, not_or] at untouched
    obtain ⟨other, old, reads⟩ := rewritten.kept stem listed untouched.1
    have apart : other.key ≠ changed.key := by
      rw [reads.key_eq, Table.key, named.lower]
      exact untouched.2
    exact ⟨other, (members other).mpr (.inr ⟨old, apart⟩),
      reads.sameButTable listed.isStem named untouched.2 others⟩
  · by_cases here : name = changed.name
    · exact ⟨changed, (members changed).mpr (.inl rfl), here.symm, holds⟩
    · have before : name ∈ written := by simpa [here] using inside
      obtain ⟨other, old, rfl, held⟩ := rewritten.saved name before
      refine ⟨other, (members other).mpr (.inr ⟨old, fun alike => ?_⟩), rfl,
        held.congr named here others⟩
      exact here (name_of other old alike)

theorem eq_of_name (rewritten : Rewritten start directory place written database now)
    {first second : Table} (here : first ∈ database.tables) (there : second ∈ database.tables)
    (same : first.name = second.name) : first = second := by
  refine rewritten.sorted.eq_of_key here there ?_
  rw [rewritten.key_eq here, rewritten.key_eq there, same]

/-- Of a table that was written and is read as it was, the file was named in lower case before: with
another spelling there would be two files. Its rows are read without those of one empty cell. -/
theorem lower_of_carries (rewritten : Rewritten start directory place written database now)
    (separable : ∀ table ∈ database.tables, table.Separable)
    (short : ∀ table ∈ database.tables, table.HasShortKey)
    (carries : now.Carries directory place database) (member : table ∈ database.tables)
    (touched : table.name ∈ written) :
    start.Lists directory place table.name ∧ [""] ∉ table.rows := by
  obtain ⟨saved, inside, alike, holds⟩ := rewritten.saved table.name touched
  obtain rfl := rewritten.eq_of_name inside member alike
  have named := holds.named
  have listed : now.Lists directory place saved.name :=
    (rewritten.lists saved.name).mpr (.inr touched)
  constructor
  · obtain ⟨stem, there, called⟩ := rewritten.origin saved member
    have still := (rewritten.lists stem).mpr (.inl there)
    have spelled : lowercase stem = lowercase saved.name := by rw [named.lower, called]
    rwa [← carries.apart stem saved.name still listed spelled]
  · intro blank
    obtain ⟨other, again, reads⟩ := carries.readable saved.name listed
    have called : other.name = saved.name := by rw [reads.name_eq, named.lower]
    obtain rfl := rewritten.eq_of_name again member called
    have filtered := holds.reads (separable other member) (short other member)
    have rows := congrArg Table.rows (reads.unique rewritten.catalog listed.isStem filtered)
    rw [rows] at blank
    have shown := (List.mem_filter.mp blank).2
    rw [decide_eq_true_iff] at shown
    exact shown (Table.line_eq_empty_iff.mpr (.inr rfl))

/-- Without a row of one empty cell a table is read from its files as it is. -/
theorem reads_of_holdsTable (separable : table.Separable) (short : table.HasShortKey)
    (holds : now.HoldsTable directory place table) (noBlank : [""] ∉ table.rows) :
    now.Reads directory place table.name table := by
  have rows : (table.rows.filter fun row => ResultSet.line row ≠ "") = table.rows := by
    refine List.filter_eq_self.mpr fun row inside => decide_eq_true fun empty => ?_
    rcases Table.line_eq_empty_iff.mp empty with rfl | rfl
    · have wide := separable.wide [] inside
      exact separable.header (List.length_eq_zero_iff.mp wide.symm)
    · exact noBlank inside
  have reads := holds.reads separable short
  rwa [rows] at reads

/-- If all tables that were written came from files named in lower case, the table files are those
that were there before. -/
theorem carries_of_lower (rewritten : Rewritten start directory place written database now)
    (apart : start.TellsApart directory place)
    (separable : ∀ table ∈ database.tables, table.Separable)
    (short : ∀ table ∈ database.tables, table.HasShortKey)
    (lower : ∀ table ∈ database.tables, table.name ∈ written →
      start.Lists directory place table.name ∧ [""] ∉ table.rows) :
    now.Carries directory place database := by
  have listed : ∀ stem, now.Lists directory place stem → start.Lists directory place stem := by
    intro stem there
    rcases (rewritten.lists stem).mp there with before | touched
    · exact before
    · obtain ⟨table, member, rfl, -⟩ := rewritten.saved stem touched
      exact (lower table member touched).1
  have readable : ∀ stem, start.Lists directory place stem →
      ∃ table ∈ database.tables, now.Reads directory place stem table := by
    intro stem there
    by_cases touched : lowercase stem ∈ written
    · obtain ⟨table, member, called, holds⟩ := rewritten.saved _ touched
      rw [← called] at touched
      obtain ⟨before, noBlank⟩ := lower table member touched
      obtain rfl : stem = table.name :=
        apart stem table.name there before (called.symm.trans holds.named.lower.symm)
      exact ⟨table, member,
        reads_of_holdsTable (separable table member) (short table member) holds noBlank⟩
    · exact rewritten.kept stem there touched
  refine ⟨rewritten.sorted, fun table member => ?_, fun stem there =>
    readable stem (listed stem there), fun first second here there =>
      apart first second (listed first here) (listed second there)⟩
  obtain ⟨stem, before, called⟩ := rewritten.origin table member
  obtain ⟨other, inside, reads⟩ := readable stem before
  have alike : other.name = table.name := by rw [reads.name_eq, called]
  obtain rfl := rewritten.eq_of_name inside member alike
  exact ⟨stem, (rewritten.lists stem).mpr (.inl before), reads⟩

/-- The directory is read as the database exactly if all tables that were written came from files
named in lower case, and none of them has a row of one empty cell. -/
theorem carries_iff (rewritten : Rewritten start directory place written database now)
    (apart : start.TellsApart directory place)
    (separable : ∀ table ∈ database.tables, table.Separable)
    (short : ∀ table ∈ database.tables, table.HasShortKey) :
    now.Carries directory place database ↔
      ∀ table ∈ database.tables, table.name ∈ written →
        start.Lists directory place table.name ∧ [""] ∉ table.rows :=
  ⟨fun carries _ member touched => rewritten.lower_of_carries separable short carries member touched,
    rewritten.carries_of_lower apart separable short⟩

/-- The second file of a table that is there in lower case can be removed. -/
theorem counter (rewritten : Rewritten start directory place written database now)
    (named : IsName name) (listed : now.Lists directory place name) :
    directory.CanName (name ++ counterEnding) ∧
      now.node? (place ++ [name ++ counterEnding]) ≠ some .directory := by
  by_cases touched : name ∈ written
  · obtain ⟨saved, -, rfl, holds⟩ := rewritten.saved name touched
    exact ⟨holds.counter.fits, by simp [holds.counter.stored]⟩
  · have before := ((rewritten.lists name).mp listed).resolve_right touched
    obtain ⟨read, -, reads⟩ := rewritten.kept name before (by rwa [named.lower])
    refine ⟨reads.fits.2, ?_⟩
    cases reads with
    | kept rows shaped counted numbered => simp [counted.stored]
    | lost rows shaped fits missing free => simp [missing]

end Rewritten

/-- The entry is one of the files of the table, in any letter case. -/
def IsOwnFile (name file : String) : Prop :=
  ∃ stem, lowercase stem = name ∧ file ∈ [stem ++ tableEnding, stem ++ counterEnding]

/-- Others have left the files of the table as they were, and the way to them. -/
structure Spares (directory : Path) (place : Location) (name : String) (before after : Disk) :
    Prop where
  catalog : after.Catalog directory place
  own : ∀ file, IsOwnFile name file → after.node? (place ++ [file]) = before.node? (place ++ [file])

theorem Spares.lists_iff {before after : Disk} {stem : String}
    (spares : Spares directory place name before after) (called : lowercase stem = name) :
    after.Lists directory place stem ↔ before.Lists directory place stem := by
  have same := spares.own (stem ++ tableEnding) ⟨stem, called, List.mem_cons_self⟩
  constructor
  · rintro ⟨isStem, fits, content, stored⟩
    exact ⟨isStem, fits, content, same.symm.trans stored⟩
  · rintro ⟨isStem, fits, content, stored⟩
    exact ⟨isStem, fits, content, same.trans stored⟩

end Disk

namespace Store

open Disk Work

variable {start now world disk : Disk} {place : Location} {written : List String} {store : Store}
  {database name : String} {loaded : Database} {table : Table}

/-- Both files of a table that was saved had room in the directory. -/
theorem saveTable_eq_ok {after : Disk} (catalog : disk.Catalog (store.directory database) place)
    (named : IsName table.name) (done : store.saveTable database table disk = .ok () after) :
    (store.directory database).CanName (table.name ++ counterEnding) ∧
      (∀ file ∈ [table.name ++ tableEnding, table.name ++ counterEnding],
        disk.node? (place ++ [file]) ≠ some .directory) ∧
      after = disk.putTable place table := by
  obtain ⟨⟨⟩, middle, first, second⟩ := bind_eq_ok_iff.mp done
  obtain ⟨rows, rfl⟩ := (DiskM.writeText_eq_ok_iff catalog.toLeads named.isFileName_table).mp
    (StoreM.ofDisk_eq_ok first)
  have leads := (catalog.put named.isFileName_table rows.noDirectory
    table.render.toUTF8).toLeads
  obtain ⟨counter, rfl⟩ :=
    (DiskM.writeText_eq_ok_iff leads named.isFileName_counter).mp (StoreM.ofDisk_eq_ok second)
  have noOther := counter.noDirectory
  rw [node?_put _ (by simp), if_neg (by simpa using (table_ne_counter named table.name).symm)]
    at noOther
  exact ⟨counter.fits, by simpa using ⟨rows.noDirectory, noOther⟩, rfl⟩

/-- The table file that is named in lower case is removed, with the second file if there is one. -/
theorem deleteTable_listed (catalog : disk.Catalog (store.directory database) place)
    (named : IsName name) (listed : disk.Lists (store.directory database) place name)
    (fits : (store.directory database).CanName (name ++ counterEnding))
    (noDirectory : disk.node? (place ++ [name ++ counterEnding]) ≠ some .directory) :
    ∃ gone, store.deleteTable database name disk = .ok () gone ∧
      gone.node? (place ++ [name ++ tableEnding]) = none ∧
      SameBut place [name ++ tableEnding, name ++ counterEnding] disk gone := by
  obtain ⟨content, stored⟩ := listed.file
  have isFile : disk.node? (place ++ [name ++ tableEnding]) ≠ some .directory := by simp [stored]
  have first := DiskM.removeFile_entry catalog.toLeads named.isFileName_table listed.fits stored
  have located := (catalog.erase isFile).locate_join named.isFileName_counter
  rw [if_pos fits] at located
  have distinct := table_ne_counter named name
  have gone : (disk.erase (place ++ [name ++ tableEnding])).node?
      (place ++ [name ++ tableEnding]) = none := by
    rw [node?_erase_entry, if_pos rfl]
  have kept : (disk.erase (place ++ [name ++ tableEnding])).node?
      (place ++ [name ++ counterEnding]) = disk.node? (place ++ [name ++ counterEnding]) := by
    rw [node?_erase_entry, if_neg distinct.symm]
  have second := DiskM.removeFile_apply (counterPath (store.directory database) name)
    (disk.erase (place ++ [name ++ tableEnding]))
  rcases stands : disk.node? (place ++ [name ++ counterEnding]) with - | - | content
  · simp only [counterPath, located, kept, stands] at second
    refine ⟨disk.erase (place ++ [name ++ tableEnding]),
      (bind_ok (StoreM.ofDisk_ok first) _).trans ?_, gone, fun file apart => ?_⟩
    · simp only [counterPath, second]
    · simp only [List.mem_cons, List.not_mem_nil, or_false, not_or] at apart
      rw [node?_erase_entry, if_neg apart.1]
  · exact absurd stands noDirectory
  · simp only [counterPath, located, kept, stands] at second
    refine ⟨(disk.erase (place ++ [name ++ tableEnding])).erase (place ++ [name ++ counterEnding]),
      (bind_ok (StoreM.ofDisk_ok first) _).trans ?_, ?_, fun file apart => ?_⟩
    · simp only [counterPath, second]
    · rw [node?_erase_entry, if_neg distinct, gone]
    · simp only [List.mem_cons, List.not_mem_nil, or_false, not_or] at apart
      rw [node?_erase_entry, if_neg apart.2, node?_erase_entry, if_neg apart.1]

/-- Without that file nothing is removed. -/
theorem deleteTable_unlisted (leads : disk.Leads (store.directory database) place)
    (named : IsName name) (missing : ¬ disk.Lists (store.directory database) place name) :
    ∃ error, store.deleteTable database name disk = .error error disk := by
  cases removed : DiskM.removeFile (tablePath (store.directory database) name) disk with
  | ok result after =>
      obtain ⟨spot, content, located, file, -⟩ := DiskM.removeFile_eq_ok removed
      rw [tablePath, leads.locate_join named.isFileName_table] at located
      split_ifs at located with fits
      cases located
      exact absurd ⟨named.isStem, fits, content, file⟩ missing
  | error fault after =>
      obtain ⟨rfl, -⟩ := DiskM.removeFile_eq_error removed
      exact ⟨_, bind_error (StoreM.ofDisk_error removed) _⟩

/-- Removing a table succeeds exactly if its file is named in lower case. What is left has no file of
this very name, and is otherwise as it was. -/
theorem left_deleteTable (catalog : disk.Catalog (store.directory database) place)
    (named : IsName name)
    (counter : disk.Lists (store.directory database) place name →
      (store.directory database).CanName (name ++ counterEnding) ∧
        disk.node? (place ++ [name ++ counterEnding]) ≠ some .directory) :
    ((∃ gone, store.deleteTable database name disk = .ok () gone) ↔
        disk.Lists (store.directory database) place name) ∧
      ¬ (left (store.deleteTable database name disk)).Lists (store.directory database) place name ∧
      SameBut place [name ++ tableEnding, name ++ counterEnding] disk
        (left (store.deleteTable database name disk)) := by
  by_cases there : disk.Lists (store.directory database) place name
  · obtain ⟨fits, noDirectory⟩ := counter there
    obtain ⟨gone, removed, missing, same⟩ :=
      deleteTable_listed catalog named there fits noDirectory
    rw [removed]
    refine ⟨iff_of_true ⟨gone, rfl⟩ there, ?_, same⟩
    rintro ⟨-, -, content, stored⟩
    cases missing.symm.trans stored
  · obtain ⟨error, failed⟩ := deleteTable_unlisted catalog.toLeads named there
    rw [failed]
    exact ⟨iff_of_false nofun there, there, fun _ _ => rfl⟩

theorem hasTable_iff_key (named : IsName name) :
    loaded.hasTable name ↔ ∃ table ∈ loaded.tables, table.key = name := by
  rw [← not_iff_not, Database.not_hasTable_iff, named.lower]
  push Not
  rfl

/-- Removing a table succeeds if its file was named in lower case or the table was written again,
but the table is gone from the directory only in the first case. -/
theorem deleteTable_rewritten
    (rewritten : Rewritten start (store.directory database) place written loaded now)
    (apart : start.TellsApart (store.directory database) place)
    (member : table ∈ loaded.tables) (named : IsName table.name)
    (spares : Spares (store.directory database) place table.name now world) :
    ((∃ gone, store.deleteTable database table.name world = .ok () gone) ↔
        start.Lists (store.directory database) place table.name ∨ table.name ∈ written) ∧
      ∀ later, Spares (store.directory database) place table.name
          (left (store.deleteTable database table.name world)) later →
        ∀ final, later.Carries (store.directory database) place final →
          (final.hasTable table.name ↔
            ¬ start.Lists (store.directory database) place table.name) := by
  have own := spares.own (table.name ++ counterEnding) ⟨table.name, named.lower, by simp⟩
  obtain ⟨removed, unlisted, same⟩ := left_deleteTable spares.catalog named fun there => by
    rw [own]
    exact rewritten.counter named ((spares.lists_iff named.lower).mp there)
  refine ⟨removed.trans ((spares.lists_iff named.lower).trans (rewritten.lists table.name)),
    fun later spared final carries => ?_⟩
  -- A file of the table in another spelling stands through all of this.
  have stands : ∀ stem, lowercase stem = table.name → stem ≠ table.name →
      (later.Lists (store.directory database) place stem ↔
        now.Lists (store.directory database) place stem) := by
    intro stem called other
    rw [spared.lists_iff called, ← spares.lists_iff called]
    exact same.lists_iff fun isStem => isStem.not_mem_files other
  rw [hasTable_iff_key named]
  constructor
  · rintro ⟨other, inside, called⟩ before
    obtain ⟨stem, there, reads⟩ := carries.stored other inside
    have spelled : lowercase stem = table.name := reads.key_eq.symm.trans called
    by_cases own : stem = table.name
    · exact unlisted ((spared.lists_iff named.lower).mp (own ▸ there))
    · have still := (stands stem spelled own).mp there
      rcases (rewritten.lists stem).mp still with first | touched
      · exact own (apart stem table.name first before (spelled.trans named.lower.symm))
      · exact own ((rewritten.isName touched).lower.symm.trans spelled)
  · intro otherwise
    obtain ⟨stem, before, called⟩ := rewritten.origin table member
    have other : stem ≠ table.name := fun own => otherwise (own ▸ before)
    have still := (rewritten.lists stem).mpr (.inl before)
    obtain ⟨read, inside, reads⟩ := carries.readable stem
      ((stands stem called.symm other).mpr still)
    exact ⟨read, inside, reads.key_eq.trans called.symm⟩

end Store

end TextTables
