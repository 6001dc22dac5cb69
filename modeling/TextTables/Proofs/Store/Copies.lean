import TextTables.Proofs.Store.Mirror
import TextTables.Proofs.Store.Premises

/-!
# Work on copies of databases

A session works on the copy of a database that it has read, whatever has become of the database
since. A table of the copy is written whole: it takes the place of the table that is stored, or
comes back if there is none. Where the database is gone, all work on it fails and changes nothing.
-/

namespace TextTables

open Location Text

/-- A copy of a database as sessions hold it: its tables are sound and have room on the disk. -/
structure Database.Proper (root : Path) (database : Database) : Prop where
  named : IsName database.name
  sorted : Sorted database.tables
  sound : ∀ table ∈ database.tables, table.Sound
  fits : ∀ table ∈ database.tables,
    (root.join database.name).CanName (table.name ++ counterEnding)

/-- The shelf with the table in the place of the one with its key, or added if there is none. -/
def Shelf.save (shelf : Shelf) (table : Table) : Shelf :=
  if shelf.tables.any fun other => other.key == table.key then shelf.update table
  else shelf.insert table

namespace Shelf

variable {shelf : Shelf} {table other : Table}

theorem save_of_present (present : ∃ old ∈ shelf.tables, old.key = table.key) :
    shelf.save table = shelf.update table := by
  rw [save, if_pos]
  simpa using present

theorem save_of_fresh (fresh : ∀ old ∈ shelf.tables, old.key ≠ table.key) :
    shelf.save table = shelf.insert table := by
  rw [save, if_neg]
  simpa using fresh

theorem mem_save :
    other ∈ (shelf.save table).tables ↔
      other = table ∨ (other ∈ shelf.tables ∧ other.key ≠ table.key) := by
  by_cases present : ∃ old ∈ shelf.tables, old.key = table.key
  · rw [save_of_present present]
    exact (Database.mem_update present : other ∈ (Database.update ⟨"", _⟩ table).tables ↔ _)
  · push Not at present
    rw [save_of_fresh present]
    exact Database.mem_place.trans
      (or_congr_right ⟨fun member => ⟨member, present other member⟩, And.left⟩)

theorem sorted_save (sorted : Database.Sorted shelf.tables) :
    Database.Sorted (shelf.save table).tables := by
  by_cases present : ∃ old ∈ shelf.tables, old.key = table.key
  · rw [save_of_present present]
    exact sorted.update table
  · push Not at present
    rw [save_of_fresh present]
    exact sorted.place present

theorem strays_save : (shelf.save table).strays = shelf.strays := by
  unfold save
  split <;> rfl

end Shelf

namespace Disk.Mirrors

variable {disk : Disk} {root : Path} {top : Location} {world : World} {database file : String}

/-- Where there is no database, no path leads to a file of it. -/
theorem locate_entry_of_missing (mirrors : disk.Mirrors root top world) (named : IsName database)
    (proper : IsFileName file) (missing : world database = none) :
    ∃ fault, disk.locate ((root.join database).join file) = .error fault := by
  cases located : disk.locate ((root.join database).join file) with
  | error fault => exact ⟨fault, rfl⟩
  | ok place =>
      obtain ⟨leads, -, -⟩ := leads_of_locate_entry named.isFileName proper located
      have ends : disk.endOf root = top := reach_eq_of_follow mirrors.leads.reached
      have vacant := mirrors.houses database
      rw [missing] at vacant
      have directory := leads.directory
      rw [ends, vacant []] at directory
      cases directory

end Disk.Mirrors

namespace Store

open Disk

variable {store : Store} {disk : Disk} {top : Location} {world : World} {database name : String}
  {table : Table}

theorem saveTable_mirrors (mirrors : disk.Mirrors store.root top world) (named : IsName database)
    (sound : table.Sound)
    (fits : (store.directory database).CanName (table.name ++ counterEnding)) :
    (∃ error, store.saveTable database table disk = .error error disk) ∨
      ∃ shelf after, world database = some shelf ∧
        store.saveTable database table disk = .ok () after ∧
        after.Mirrors store.root top (Function.update world database (some (shelf.save table))) := by
  cases present : world database with
  | none =>
      obtain ⟨fault, lost⟩ :=
        mirrors.locate_entry_of_missing named sound.named.isFileName_table present
      exact .inl ⟨_, saveTable_unlocated lost⟩
  | some shelf =>
      obtain ⟨-, -, holds⟩ := mirrors.houses_some present
      have leads := mirrors.leads_database present
      refine .inr ⟨shelf, _, rfl, saveTable_ok leads.toLeads sound.named fits
        (holds.entry_ne_directory _) (holds.entry_ne_directory _), ?_⟩
      apply mirrors.changed_inside present (.putTable disk _ table)
      have whole := holds.putTable sound fits (Shelf.sorted_save holds.sorted)
        fun other => Shelf.mem_save
      rwa [← (Shelf.strays_save : (shelf.save table).strays = shelf.strays)] at whole

theorem createTable_mirrors (mirrors : disk.Mirrors store.root top world) (named : IsName database)
    (sound : table.Sound) :
    (∃ error, store.createTable database table disk = .error error disk) ∨
      (∃ shelf error after, world database = some shelf ∧
        ¬ (store.directory database).CanName (table.name ++ counterEnding) ∧
        store.createTable database table disk = .error error after ∧
        after.Mirrors store.root top
          (Function.update world database (some (shelf.strand table.name)))) ∨
      ∃ shelf after, world database = some shelf ∧
        (∀ other ∈ shelf.tables, other.key ≠ table.key) ∧
        (store.directory database).CanName (table.name ++ counterEnding) ∧
        store.createTable database table disk = .ok () after ∧
        after.Mirrors store.root top
          (Function.update world database (some (shelf.insert table))) := by
  cases present : world database with
  | none =>
      obtain ⟨fault, lost⟩ :=
        mirrors.locate_entry_of_missing named sound.named.isFileName_table present
      exact .inl (createTable_unlocated lost)
  | some shelf =>
      obtain ⟨-, -, holds⟩ := mirrors.houses_some present
      have leads := mirrors.leads_database present
      by_cases fresh : ∀ other ∈ shelf.tables, other.key ≠ table.key
      · rcases createTable_cases leads holds sound fresh with
          ⟨after, done, changed, fits, whole⟩ | ⟨error, after, torn, changed, long, stranded⟩ |
            ⟨error, refused⟩
        · exact .inr (.inr ⟨shelf, after, rfl, fresh, fits, done,
            mirrors.changed_inside present changed whole⟩)
        · exact .inr (.inl ⟨shelf, error, after, rfl, long, torn,
            mirrors.changed_inside present changed stranded⟩)
        · exact .inl ⟨error, refused⟩
      · push Not at fresh
        obtain ⟨other, member, same⟩ := fresh
        rw [(holds.sound other member).key, sound.key] at same
        apply Or.inl
        apply createTable_refused leads sound.named
        right
        rw [← same, holds.tableFile other member]
        exact Option.some_ne_none _

theorem deleteTable_mirrors (mirrors : disk.Mirrors store.root top world) (named : IsName database)
    (tableNamed : IsName name)
    (fits : (store.directory database).CanName (name ++ counterEnding)) :
    (∃ error, store.deleteTable database name disk = .error error disk) ∨
      ∃ shelf table after, world database = some shelf ∧ table ∈ shelf.tables ∧ table.name = name ∧
        store.deleteTable database name disk = .ok () after ∧
        after.Mirrors store.root top
          (Function.update world database (some (shelf.remove table))) := by
  cases present : world database with
  | none =>
      obtain ⟨fault, lost⟩ :=
        mirrors.locate_entry_of_missing named tableNamed.isFileName_table present
      exact .inl ⟨_, deleteTable_unlocated lost⟩
  | some shelf =>
      obtain ⟨-, -, holds⟩ := mirrors.houses_some present
      have leads := mirrors.leads_database present
      by_cases stored : ∃ table ∈ shelf.tables, table.name = name
      · obtain ⟨table, member, rfl⟩ := stored
        obtain ⟨after, done, changed, whole⟩ := deleteTable_holds leads holds member
        exact .inr ⟨shelf, table, after, rfl, member, rfl, done,
          mirrors.changed_inside present changed whole⟩
      · have vacant : disk.node? (top ++ [database] ++ [name ++ tableEnding]) = none := by
          by_contra stands
          rcases holds.entry _ stands with ⟨table, member, same | same⟩ | ⟨stray, member, same⟩
          · exact stored ⟨table, member, (append_ending_inj same).symm⟩
          · exact table_ne_counter tableNamed _ same
          · exact holds.ne_stray fits member (append_ending_inj same)
        have room : (store.root.join database).CanName (name ++ tableEnding) :=
          fits.table tableNamed
        have located := leads.locate_join tableNamed.isFileName_table
        rw [if_pos room] at located
        refine .inl ⟨.disk .notFound, Work.bind_error (StoreM.ofDisk_error ?_) _⟩
        simp only [DiskM.removeFile_apply, tablePath, directory, located, vacant]

theorem loadDatabase_mirrors (mirrors : disk.Mirrors store.root top world) (named : IsName name) :
    (∃ error, store.loadDatabase name disk = .error error disk) ∨
      ∃ shelf, world name = some shelf ∧ shelf.Readable ∧
        store.loadDatabase name disk = .ok ⟨name, shelf.tables⟩ disk := by
  cases present : world name with
  | none => exact .inl ⟨_, loadDatabase_unknown (mirrors.not_isDirectory named present)⟩
  | some shelf =>
      obtain ⟨⟨-, -, fits⟩, -, holds⟩ := mirrors.houses_some present
      have leads := mirrors.leads_database present
      by_cases readable : shelf.Readable
      · have once := mirrors.tidy (top ++ [name]) (List.prefix_append _ _)
        exact .inr ⟨shelf, rfl, readable, loadDatabase_ok named leads.toLeads
          (leads.locate fits.2) holds once readable⟩
      · exact .inl (loadDatabase_unreadable leads.toLeads (leads.locate fits.2) holds readable)

/-- A database is made under a name that is free, allowed, and not too long. -/
theorem createDatabase_made (mirrors : disk.Mirrors store.root top world) (named : IsName name)
    (unreserved : isReserved name = false) (fits : store.root.CanName name)
    (free : world name = none) :
    ∃ after, store.createDatabase name disk = .ok () after ∧
      after.Mirrors store.root top (Function.update world name (some .empty)) := by
  have houses := mirrors.houses name
  rw [free] at houses
  have outcome := createDatabase_apply mirrors.leads.toLeads named.isFileName
  rw [if_pos fits, if_pos (houses [])] at outcome
  refine ⟨_, outcome, mirrors.changed (ChangedAt.put disk (List.prefix_refl _) _) ?_⟩
  refine ⟨⟨named, unreserved, fits⟩, ?_, holds_empty fun file rest => ?_⟩
  · rw [node?_put _ (by simp), if_pos rfl]
  · rw [List.append_assoc, node?_put _ (by simp), if_neg (by simp)]
    exact houses (file :: rest)

theorem createDatabase_mirrors (mirrors : disk.Mirrors store.root top world) (named : IsName name)
    (unreserved : isReserved name = false) :
    (∃ error, store.createDatabase name disk = .error error disk) ∨
      ∃ after, world name = none ∧ store.createDatabase name disk = .ok () after ∧
        after.Mirrors store.root top (Function.update world name (some .empty)) := by
  have outcome := createDatabase_apply mirrors.leads.toLeads named.isFileName
  by_cases fits : store.root.CanName name
  · cases present : world name with
    | none =>
        obtain ⟨after, done, mirrored⟩ :=
          createDatabase_made mirrors named unreserved fits present
        exact .inr ⟨after, rfl, done, mirrored⟩
    | some shelf =>
        obtain ⟨-, directory, -⟩ := mirrors.houses_some present
        rw [if_pos fits, directory, if_neg (by simp)] at outcome
        exact .inl ⟨_, outcome⟩
  · rw [if_neg fits] at outcome
    exact .inl ⟨_, outcome⟩

theorem dropDatabase_mirrors (mirrors : disk.Mirrors store.root top world) (named : IsName name) :
    (∃ error, store.dropDatabase name disk = .error error disk) ∨
      ∃ shelf after, world name = some shelf ∧ store.dropDatabase name disk = .ok () after ∧
        after.Mirrors store.root top (Function.update world name none) := by
  cases present : world name with
  | none => exact .inl ⟨_, dropDatabase_unknown (mirrors.not_isDirectory named present)⟩
  | some shelf =>
      obtain ⟨⟨-, -, fits⟩, -, holds⟩ := mirrors.houses_some present
      have leads := mirrors.leads_database present
      have once := mirrors.tidy (top ++ [name]) (List.prefix_append _ _)
      obtain ⟨after, done, changed, vacant⟩ :=
        dropDatabase_ok leads named.isFileName (by simp) fits.2 holds once
      refine .inr ⟨shelf, after, rfl, done, mirrors.changed changed fun rest => ?_⟩
      have gone := vacant rest
      rwa [List.append_assoc] at gone

end Store

end TextTables
