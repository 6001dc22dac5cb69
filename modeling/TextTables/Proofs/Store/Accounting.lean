import TextTables.Proofs.Store.Clearing
import TextTables.Proofs.Store.Reopening
import TextTables.Proofs.Store.Stems
import TextTables.Proofs.Store.Upkeep

/-!
# Table files that are accounted for

In a run from a new store, a table file belongs to a table that is stored, or was left behind by a
table whose second file cannot be written. The latter is never read, so that what is read is what is
stored, and reading writes nothing. It stays so for as long as the root leads to its end. Once it
does not, nothing on the disk changes any more.
-/

namespace TextTables

open Location Work Text

namespace Disk

/-- If there is a file of the table, the table is stored, or its second file cannot be written. -/
def Accounts (disk : Disk) (directory : Path) (place : Location) (name : String) : Prop :=
  ∀ content, disk.node? (place ++ [name ++ tableEnding]) = some (.file content) →
    (∃ table, table.name = name ∧ disk.Stores directory place table) ∨
      ¬ disk.Admits directory place (name ++ counterEnding)

/-- All table files are accounted for, and databases are removed whole. -/
structure Accounted (disk : Disk) (root : Path) (top : Location) : Prop where
  clearable : disk.Clearable root top
  accounts : ∀ database table, IsName table →
    disk.Accounts (root.join database) (top ++ [database]) table

variable {disk after : Disk} {root directory : Path} {top place : Location}
  {database name file : String}

theorem Accounts.congr (accounts : disk.Accounts directory place name)
    (first : after.node? (place ++ [name ++ tableEnding]) =
      disk.node? (place ++ [name ++ tableEnding]))
    (second : after.node? (place ++ [name ++ counterEnding]) =
      disk.node? (place ++ [name ++ counterEnding])) : after.Accounts directory place name := by
  intro content stands
  rw [first] at stands
  rcases accounts content stands with ⟨table, rfl, stores⟩ | blocked
  · exact .inl ⟨table, rfl, stores.congr first second⟩
  · exact .inr fun admits => blocked ⟨admits.fits, second ▸ admits.noDirectory⟩

/-- Work on a table leaves the others accounted for. -/
theorem Accounted.worked (accounted : disk.Accounted root top) (named : IsName name)
    (worked : WorkedOn root top database name disk after) (clearable : after.Clearable root top)
    (accounts : after.Accounts (root.join database) (top ++ [database]) name) :
    after.Accounted root top := by
  refine ⟨clearable, fun other table tableNamed => ?_⟩
  by_cases here : other = database ∧ table = name
  · obtain ⟨rfl, rfl⟩ := here
    exact accounts
  · have apart : other = database → table ≠ name := fun same called => here ⟨same, called⟩
    exact (accounted.accounts other table tableNamed).congr (worked.tableFile_eq tableNamed apart)
      (worked.counterFile_eq named apart)

namespace Orderly

/-- Without its root, no database is found. -/
theorem locate_of_lost (orderly : disk.Orderly root top) (lost : ¬ disk.Leads root top)
    (proper : IsFileName name) : ∃ fault, disk.locate (root.join name) = .error fault := by
  cases located : disk.locate (root.join name) with
  | error fault => exact ⟨fault, rfl⟩
  | ok place =>
      obtain ⟨leads, -, -⟩ := leads_of_locate_join proper located
      rw [orderly.ends] at leads
      exact absurd leads lost

theorem locate_entry_of_lost (orderly : disk.Orderly root top) (lost : ¬ disk.Leads root top)
    (named : IsFileName database) (proper : IsFileName file) :
    ∃ fault, disk.locate ((root.join database).join file) = .error fault := by
  cases located : disk.locate ((root.join database).join file) with
  | error fault => exact ⟨fault, rfl⟩
  | ok place =>
      obtain ⟨below, -, -⟩ := leads_of_locate_join proper located
      have leads := below.of_join named
      rw [orderly.ends] at leads
      exact absurd leads lost

theorem not_isDirectory_of_lost (orderly : disk.Orderly root top) (lost : ¬ disk.Leads root top)
    (proper : IsFileName name) : disk.isDirectory (root.join name) = false := by
  obtain ⟨fault, unlocated⟩ := orderly.locate_of_lost lost proper
  simp [isDirectory, lookup?, unlocated]

theorem leads_of_isDirectory (orderly : disk.Orderly root top) (stands : disk.isDirectory root) :
    disk.Leads root top := by
  obtain ⟨place, located, directory⟩ := isDirectory_iff.mp stands
  have leads := Leads.of_locate located directory
  have reached : disk.endOf root = place := reach_eq_of_follow leads.reached
  rwa [← reached, orderly.ends] at leads

end Orderly

end Disk

namespace Store

open Disk
open StoreM (ofDisk)

variable {store : Store} {top : Location} {database name : String} {table : Table}
  {disk after : Disk} {error : Error}

section Lost

theorem createDatabase_of_lost (orderly : disk.Orderly store.root top)
    (lost : ¬ disk.Leads store.root top) (proper : IsFileName name) :
    ∃ error, store.createDatabase name disk = .error error disk := by
  obtain ⟨fault, unlocated⟩ := orderly.locate_of_lost lost proper
  have failed : DiskM.makeDirectory (store.directory name) disk = .error fault disk := by
    rw [directory, DiskM.makeDirectory_apply, locateNew_join proper, unlocated]
  unfold createDatabase unlessTaken
  rw [failed]
  cases fault <;> exact ⟨_, rfl⟩

theorem saveTable_of_lost (orderly : disk.Orderly store.root top)
    (lost : ¬ disk.Leads store.root top) (named : IsName database)
    (tableNamed : IsName table.name) :
    ∃ error, store.saveTable database table disk = .error error disk := by
  obtain ⟨fault, unlocated⟩ :=
    orderly.locate_entry_of_lost lost named.isFileName tableNamed.isFileName_table
  exact ⟨_, saveTable_unlocated unlocated⟩

theorem createTable_of_lost (orderly : disk.Orderly store.root top)
    (lost : ¬ disk.Leads store.root top) (named : IsName database)
    (tableNamed : IsName table.name) :
    ∃ error, store.createTable database table disk = .error error disk := by
  obtain ⟨fault, unlocated⟩ :=
    orderly.locate_entry_of_lost lost named.isFileName tableNamed.isFileName_table
  exact createTable_unlocated unlocated

theorem deleteTable_of_lost (orderly : disk.Orderly store.root top)
    (lost : ¬ disk.Leads store.root top) (named : IsName database) (tableNamed : IsName name) :
    ∃ error, store.deleteTable database name disk = .error error disk := by
  obtain ⟨fault, unlocated⟩ :=
    orderly.locate_entry_of_lost lost named.isFileName tableNamed.isFileName_table
  exact ⟨_, deleteTable_unlocated unlocated⟩

end Lost

section Reading

/-- A table whose second file cannot be written cannot be read either. -/
theorem loadTable_blocked {directory : Path} {place : Location}
    (leads : disk.Leads directory place) (named : IsName name)
    (blocked : ¬ disk.Admits directory place (name ++ counterEnding)) :
    ∃ error, loadTable directory name disk = .error error disk := by
  have located := leads.locate_join named.isFileName_counter
  obtain ⟨error, counter⟩ : ∃ error, readCounter (counterPath directory name) disk =
      .error error disk := by
    by_cases fits : directory.CanName (name ++ counterEnding)
    · have stands : disk.node? (place ++ [name ++ counterEnding]) = some .directory := by
        by_contra noDirectory
        exact blocked ⟨fits, noDirectory⟩
      refine ⟨.disk .isDirectory, ?_⟩
      simp only [readCounter, DiskM.readText_apply, counterPath, located, if_pos fits, stands]
    · refine ⟨.disk .nameTooLong, ?_⟩
      simp only [readCounter, DiskM.readText_apply, counterPath, located, if_neg fits]
  exact loadTable_uncounted counter

/-- What is read from a table file that is accounted for is stored. -/
theorem loadTable_accounted {directory : Path} {place : Location} {content : ByteArray}
    (leads : disk.Leads directory place) (named : IsName name)
    (accounts : disk.Accounts directory place name)
    (stands : disk.node? (place ++ [name ++ tableEnding]) = some (.file content)) :
    (∃ error, loadTable directory name disk = .error error disk) ∨
      ∃ table, loadTable directory name disk = .ok table disk ∧
        disk.Stores directory place table := by
  rcases accounts content stands with ⟨table, rfl, stores⟩ | blocked
  · by_cases short : table.HasShortKey
    · exact .inr ⟨table, loadTable_ok leads stores short, stores⟩
    · exact .inl (loadTable_long leads stores short)
  · exact .inl (loadTable_blocked leads named blocked)

/-- What work reads into a database changes nothing, and brings tables that are stored. -/
def BringsStored (disk : Disk) (directory : Path) (place : Location) (sofar : Database)
    (work : StoreM Database) : Prop :=
  (∃ error, work disk = .error error disk) ∨
    ∃ next, work disk = .ok next disk ∧
      ∀ table ∈ next.tables, table ∈ sofar.tables ∨ disk.Stores directory place table

theorem loadEntry_bringsStored (orderly : disk.Orderly store.root top)
    (accounted : disk.Accounted store.root top) (named : IsName database) {entry : String}
    (proper : IsFileName entry) (sofar : Database) :
    BringsStored disk (store.directory database) (top ++ [database]) sofar
      (loadEntry (store.directory database) sofar entry) := by
  unfold BringsStored
  rw [loadEntry_apply]
  split
  · rename_i isFile
    obtain ⟨place, content, located, stands⟩ := isFile_iff.mp isFile
    obtain ⟨leads, -, rfl⟩ : disk.Leads (store.directory database) (top ++ [database]) ∧ _ ∧ _ :=
      orderly.leads_of_locate named proper located
    obtain ⟨stem, stemNamed, rfl | rfl⟩ := orderly.files database entry content stands
    · rw [stem?_table stemNamed]
      have accounts : disk.Accounts (store.directory database) (top ++ [database]) stem :=
        accounted.accounts database stem stemNamed
      rcases loadTable_accounted leads stemNamed accounts stands with
        ⟨error, failed⟩ | ⟨table, loaded, stores⟩
      · exact .inl ⟨error, Work.bind_error failed _⟩
      · dsimp only
        rw [Work.bind_ok loaded]
        by_cases fresh : ∀ other ∈ sofar.tables, other.key ≠ table.key
        · rw [Database.addTable_ok fresh]
          refine .inr ⟨_, rfl, fun other member => ?_⟩
          rcases Database.mem_place.mp member with rfl | old
          · exact .inr stores
          · exact .inl old
        · have taken : (sofar.tables.any fun other => other.key == table.key) = true := by
            simpa using fresh
          exact .inl ⟨_, by rw [Database.addTable, if_pos taken]; rfl⟩
    · rw [stem?_counter]
      exact .inr ⟨sofar, rfl, fun _ member => .inl member⟩
  · exact .inr ⟨sofar, rfl, fun _ member => .inl member⟩

theorem loadEntries_bringsStored {entries : List String} (orderly : disk.Orderly store.root top)
    (accounted : disk.Accounted store.root top) (named : IsName database)
    (proper : ∀ entry ∈ entries, IsFileName entry) (sofar : Database) :
    BringsStored disk (store.directory database) (top ++ [database]) sofar
      (entries.foldlM (loadEntry (store.directory database)) sofar) := by
  induction entries generalizing sofar with
  | nil => exact .inr ⟨sofar, rfl, fun _ member => .inl member⟩
  | cons entry rest inductionHypothesis =>
      unfold BringsStored
      rw [List.foldlM_cons]
      rcases loadEntry_bringsStored orderly accounted named (proper entry List.mem_cons_self) sofar
        with ⟨error, failed⟩ | ⟨next, loaded, brought⟩
      · exact .inl ⟨error, Work.bind_error failed _⟩
      · rw [Work.bind_ok loaded]
        rcases inductionHypothesis (fun other member => proper other (.tail _ member)) next with
          ⟨error, failed⟩ | ⟨final, folded, others⟩
        · exact .inl ⟨error, failed⟩
        · refine .inr ⟨final, folded, fun table member => ?_⟩
          rcases others table member with before | stores
          · exact brought table before
          · exact .inr stores

/-- Where all table files are accounted for, reading a database changes nothing, and brings tables
that are stored. -/
theorem loadDatabase_accounted (orderly : disk.Orderly store.root top)
    (accounted : disk.Accounted store.root top) (named : IsName name) :
    (∃ error, store.loadDatabase name disk = .error error disk) ∨
      ∃ database, store.loadDatabase name disk = .ok database disk ∧ store.root.CanName name ∧
        ∀ table ∈ database.tables, disk.Stores (store.directory name) (top ++ [name]) table := by
  by_cases isDirectory : disk.isDirectory (store.directory name)
  · obtain ⟨place, located, directory⟩ := isDirectory_iff.mp isDirectory
    obtain ⟨-, fits, -⟩ := leads_of_locate_join named.isFileName located
    obtain rfl := orderly.eq_of_locate named located
    rw [loadDatabase_apply (Leads.of_locate located directory) located]
    rcases loadEntries_bringsStored orderly accounted named
      (fun entry member => orderly.isFileName_of_mem_names member) (Database.empty name) with
      failed | ⟨final, folded, brought⟩
    · exact .inl failed
    · refine .inr ⟨final, folded, fits, fun table member => ?_⟩
      exact (brought table member).resolve_left (by simp [Database.empty])
  · exact .inl ⟨_, loadDatabase_unknown (by simpa using isDirectory)⟩

end Reading

section Databases

theorem createDatabase_accounted (orderly : disk.Orderly store.root top)
    (accounted : disk.Accounted store.root top) (named : IsName name) :
    (left (store.createDatabase name disk)).Accounted store.root top := by
  by_cases leads : disk.Leads store.root top
  · rw [createDatabase_apply leads named.isFileName]
    split
    · split
      · refine ⟨accounted.clearable.putDirectory name _, fun database table tableNamed => ?_⟩
        refine (accounted.accounts database table tableNamed).congr ?_ ?_ <;>
          exact (node?_put _ (by simp) _ _).trans (if_neg (by simp))
      · exact accounted
    · exact accounted
  · obtain ⟨error, failed⟩ := createDatabase_of_lost orderly leads named.isFileName
    rw [failed]
    exact accounted

theorem dropDatabase_clearable (clearable : disk.Clearable store.root top) (name : String) :
    (left (store.dropDatabase name disk)).Clearable store.root top := by
  by_cases isDirectory : disk.isDirectory (store.directory name)
  · obtain ⟨place, located, directory⟩ := isDirectory_iff.mp isDirectory
    rw [dropDatabase_apply located directory]
    refine left_bind (fun disk : Disk => disk.Clearable store.root top) ?_
      fun _ middle cleared => ?_
    · rw [StoreM.left_ofDisk]
      exact left_forM (fun disk : Disk => disk.Clearable store.root top)
        (fun entry _ middle cleared => DiskM.removeAll_clearable cleared _) clearable
    · rw [StoreM.left_ofDisk]
      exact DiskM.removeDirectory_clearable cleared _
  · rw [dropDatabase_unknown (by simpa using isDirectory)]
    exact clearable

/-- A database that was removed has left nothing. -/
theorem dropDatabase_vacant (orderly : disk.Orderly store.root top) (named : IsName name)
    (done : store.dropDatabase name disk = .ok () after) (rest : List String) :
    after.node? (top ++ [name] ++ rest) = none := by
  have isDirectory : disk.isDirectory (store.directory name) := by
    by_contra missing
    rw [dropDatabase_unknown (by simpa using missing)] at done
    cases done
  obtain ⟨place, located, directory⟩ := isDirectory_iff.mp isDirectory
  obtain rfl := orderly.eq_of_locate named located
  have cut := DiskM.removeEach_cut orderly named
    (fun entry (member : entry ∈ disk.names (top ++ [name])) =>
      orderly.isFileName_of_mem_names member)
  rw [dropDatabase_apply located directory] at done
  obtain ⟨⟨⟩, middle, first, last⟩ := Work.bind_eq_ok_iff.mp done
  have emptied := StoreM.ofDisk_eq_ok first
  have removed := StoreM.ofDisk_eq_ok last
  simp only [Store.directory] at emptied
  rw [emptied] at cut
  rw [DiskM.removeDirectory_apply] at removed
  split at removed
  · cases removed
  · rename_i reached found
    obtain rfl : reached = top ++ [name] := cut.orderly.eq_of_locate named found
    repeat' split at removed
    all_goals cases removed
    rw [node?_erase _ (by simp), if_pos (by simp)]

theorem dropDatabase_accounted (orderly : disk.Orderly store.root top)
    (accounted : disk.Accounted store.root top) (named : IsName name)
    (done : store.dropDatabase name disk = .ok () after) : after.Accounted store.root top := by
  have cut := dropDatabase_cut orderly named
  have clearable := dropDatabase_clearable accounted.clearable name
  rw [done] at cut clearable
  refine ⟨clearable, fun database table tableNamed => ?_⟩
  by_cases here : database = name
  · subst here
    intro content stands
    rw [dropDatabase_vacant orderly named done] at stands
    cases stands
  · exact (accounted.accounts database table tableNamed).congr (cut.file_eq here _)
      (cut.file_eq here _)

end Databases

section Tables

theorem saveTable_clearable (orderly : disk.Orderly store.root top)
    (clearable : disk.Clearable store.root top) (named : IsName database)
    (tableNamed : IsName table.name) :
    (left (store.saveTable database table disk)).Clearable store.root top := by
  refine (left_bind
    (fun disk : Disk => disk.Orderly store.root top ∧ disk.Clearable store.root top) ?_
    fun _ middle ⟨orderly, clearable⟩ => ?_).2
  · rw [StoreM.left_ofDisk]
    exact ⟨(DiskM.writeText_workedOn orderly named tableNamed (.inl rfl) _).orderly,
      DiskM.writeText_clearable orderly clearable named tableNamed.isFileName_table _⟩
  · rw [writeCounter, StoreM.left_ofDisk]
    exact ⟨(DiskM.writeText_workedOn orderly named tableNamed (.inr rfl) _).orderly,
      DiskM.writeText_clearable orderly clearable named tableNamed.isFileName_counter _⟩

theorem createTable_clearable (orderly : disk.Orderly store.root top)
    (clearable : disk.Clearable store.root top) (named : IsName database)
    (tableNamed : IsName table.name) :
    (left (store.createTable database table disk)).Clearable store.root top := by
  refine (left_bind
    (fun disk : Disk => disk.Orderly store.root top ∧ disk.Clearable store.root top) ?_
    fun _ middle ⟨orderly, clearable⟩ => ?_).2
  · rw [left_unlessTaken]
    exact ⟨(DiskM.createFile_workedOn orderly named tableNamed (.inl rfl)).orderly,
      DiskM.createFile_clearable orderly clearable named tableNamed.isFileName_table⟩
  · exact ⟨(saveTable_workedOn orderly named tableNamed).orderly,
      saveTable_clearable orderly clearable named tableNamed⟩

theorem deleteTable_clearable (clearable : disk.Clearable store.root top) (database name : String) :
    (left (store.deleteTable database name disk)).Clearable store.root top := by
  refine left_bind (fun disk : Disk => disk.Clearable store.root top) ?_
    fun _ middle clearable => ?_
  · rw [StoreM.left_ofDisk]
    exact DiskM.removeFile_clearable clearable _
  · have second := DiskM.removeFile_clearable clearable
      (counterPath (store.directory database) name)
    split <;> rename_i outcome <;> rwa [outcome] at second

theorem saveTable_accounted (orderly : disk.Orderly store.root top)
    (accounted : disk.Accounted store.root top) (named : IsName database) (sound : table.Sound)
    (done : store.saveTable database table disk = .ok () after) :
    after.Accounted store.root top := by
  have worked := saveTable_workedOn orderly named sound.named
  have clearable := saveTable_clearable orderly accounted.clearable named sound.named
  rw [done] at worked clearable
  exact accounted.worked sound.named worked clearable fun _ _ =>
    .inl ⟨table, rfl, saveTable_stores orderly named sound done⟩

/-- A table that could not be made has left a file at most if its second file cannot be written. -/
theorem createTable_blocked (orderly : disk.Orderly store.root top) (named : IsName database)
    (tableNamed : IsName table.name)
    (failed : store.createTable database table disk = .error error after) :
    after = disk ∨ ¬ after.Admits (store.directory database) (top ++ [database])
      (table.name ++ counterEnding) := by
  rcases Work.bind_eq_error_iff.mp failed with early | ⟨⟨⟩, middle, first, late⟩
  · obtain ⟨fault, stopped⟩ := unlessTaken_eq_error early
    exact .inl (DiskM.createFile_eq_error stopped).1
  · obtain ⟨place, located, free, rfl⟩ := DiskM.createFile_eq_ok (unlessTaken_eq_ok first)
    obtain ⟨leads, fits, rfl⟩ := orderly.leads_of_locate named tableNamed.isFileName_table located
    have noDirectory := noDirectory_of_free free
    have still := (KeepsDirectories.put (by simp) noDirectory (.file .empty)).leads leads
    have distinct := (table_ne_counter tableNamed table.name).symm
    refine .inr fun admits => ?_
    -- With room for both files, the new table would have been saved.
    have saved := saveTable_ok still tableNamed admits.fits
      (by rw [node?_put _ (by simp), if_pos rfl]; exact nofun) (by
        have room := admits.noDirectory
        rcases saveTable_eq_error late with ⟨rfl, -⟩ | ⟨other, found, -, rfl⟩
        · exact room
        · obtain rfl : other = top ++ [database] ++ [table.name ++ tableEnding] := by
            have written := still.locate_join tableNamed.isFileName_table
            rw [if_pos fits] at written
            cases written.symm.trans found
            rfl
          rwa [node?_put _ (by simp), if_neg (by simpa using distinct)] at room)
    cases saved.symm.trans late

theorem createTable_accounted (orderly : disk.Orderly store.root top)
    (accounted : disk.Accounted store.root top) (named : IsName database) (sound : table.Sound) :
    (left (store.createTable database table disk)).Accounted store.root top := by
  have worked := createTable_workedOn orderly named sound.named
  have clearable := createTable_clearable orderly accounted.clearable named sound.named
  cases outcome : store.createTable database table disk with
  | ok result after =>
      rw [outcome] at worked clearable
      exact accounted.worked sound.named worked clearable fun _ _ =>
        .inl ⟨table, rfl, createTable_stores orderly named sound outcome⟩
  | error error after =>
      rw [outcome] at worked clearable
      rcases createTable_blocked orderly named sound.named outcome with rfl | blocked
      · exact accounted
      · exact accounted.worked sound.named worked clearable fun _ _ => .inr blocked

theorem deleteTable_accounted (orderly : disk.Orderly store.root top)
    (accounted : disk.Accounted store.root top) (named : IsName database) (tableNamed : IsName name)
    (done : store.deleteTable database name disk = .ok () after) :
    after.Accounted store.root top := by
  have worked := deleteTable_workedOn orderly named tableNamed
  have clearable := deleteTable_clearable accounted.clearable database name
  rw [done] at worked clearable
  refine accounted.worked tableNamed worked clearable fun content stands => ?_
  obtain ⟨⟨⟩, middle, first, second⟩ := Work.bind_eq_ok_iff.mp done
  obtain ⟨place, stored, located, -, rfl⟩ := DiskM.removeFile_eq_ok (StoreM.ofDisk_eq_ok first)
  obtain ⟨-, -, rfl⟩ := orderly.leads_of_locate named tableNamed.isFileName_table located
  have gone : (disk.erase (top ++ [database] ++ [name ++ tableEnding])).node?
      (top ++ [database] ++ [name ++ tableEnding]) = none := by
    rw [node?_erase _ (by simp), if_pos (by simp)]
  have reduced : ReducedAt [] (disk.erase (top ++ [database] ++ [name ++ tableEnding])) after := by
    split at second <;> rename_i outcome <;> cases second
    · obtain ⟨other, held, -, file, rfl⟩ := DiskM.removeFile_eq_ok outcome
      have noDirectory := ne_of_eq_of_ne file (by simp : some (Node.file held) ≠ some .directory)
      exact .erase List.nil_prefix (ne_nil_of_node? noDirectory)
    · rw [(DiskM.removeFile_eq_error outcome).1]
      exact .refl _ _
  rw [reduced.kept _ (by rw [stands]; exact Option.some_ne_none _), gone] at stands
  cases stands

end Tables

end Store

section Opening

variable {disk start : Disk} {root path : Path} {top : Location} {session : Session}

/-- Below the top there are directories only, and nothing is listed twice. -/
structure Disk.Fileless (disk : Disk) (top : Location) : Prop where
  tidy : disk.Tidy top
  noFile : ∀ name rest content, disk.node? (top ++ name :: rest) ≠ some (.file content)

theorem Disk.IsBare.fileless (bare : disk.IsBare root) : disk.Fileless (disk.endOf root) := by
  refine ⟨tidy_of_vacant bare, fun name rest content stands => ?_⟩
  rw [bare name rest] at stands
  cases stands

theorem DiskM.ensureDirectory_fileless (fileless : disk.Fileless top) (path : Path) :
    (left (ensureDirectory path disk)).Fileless top := by
  unfold ensureDirectory
  cases outcome : makeDirectory path disk with
  | ok result after =>
      obtain ⟨-, place, -, free, rfl⟩ := makeDirectory_eq_ok outcome
      have below := Disk.ne_nil_of_node? (Disk.noDirectory_of_free free)
      obtain ⟨parent, last, rfl⟩ := (List.eq_nil_or_concat place).resolve_left below
      rw [List.concat_eq_append] at below ⊢
      refine ⟨fileless.tidy.put parent last _, fun name rest content => ?_⟩
      change (disk.put _ _).node? _ ≠ _
      rw [Disk.node?_put _ below]
      split
      · exact nofun
      · exact fileless.noFile name rest content
  | error fault after =>
      obtain rfl := makeDirectory_eq_error outcome
      dsimp only
      split <;> exact fileless

/-- In a new store, the directories of databases hold at most what lies on the way of the root. -/
theorem Session.accounted_of_openAt (bare : disk.IsBare root)
    (opened : openAt root disk = .ok session start) :
    start.Accounted root (disk.endOf root) ∧ start.Leads root (disk.endOf root) := by
  have ensured : DiskM.ensureDirectories root disk = .ok () start := by
    cases outcome : DiskM.ensureDirectories root disk with
    | ok result after =>
        cases (openAt_ok outcome).symm.trans opened
        rfl
    | error fault after => cases (openAt_error outcome).symm.trans opened
  obtain ⟨leads, -, changed⟩ := DiskM.ensureDirectories_eq_ok ensured
  have fileless : (left (DiskM.ensureDirectories root disk)).Fileless (disk.endOf root) :=
    DiskM.left_ensureChain (fun middle => middle.Fileless (disk.endOf root))
      (fun path _ _ fileless => DiskM.ensureDirectory_fileless fileless path) bare.fileless
  rw [ensured] at fileless
  refine ⟨⟨⟨fileless.tidy, fun database => ?_⟩, fun database table _ content stands => ?_⟩, leads⟩
  · refine ⟨start.names (disk.endOf root ++ [database]), [], by simp, fun name member => ?_,
      by simp⟩
    have stands := Disk.mem_names_iff.mp member
    rw [Disk.start_congr changed.home]
    by_contra apart
    rw [changed.outside _ apart, List.append_assoc] at stands
    exact stands (bare database [name])
  · rw [List.append_assoc] at stands
    exact absurd stands (fileless.noFile database _ content)

end Opening

end TextTables
