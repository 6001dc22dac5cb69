import TextTables.Proofs.Disk.Agreement
import TextTables.Proofs.Store.Confinement
import TextTables.Proofs.Text.Lowering

/-!
# The footprint of work on a store

On any tree of files, and whether it succeeds or fails, work on a table touches the two files of
that table, work on a database touches what stands at its directory and below, and reading one
touches nothing but second files in its directory, which it makes or writes anew.
-/

namespace TextTables

open Location Work Text

namespace Disk

/-- Everything is properly named and stands in a directory. -/
structure IsTree (disk : Disk) : Prop where
  named : disk.HasFileNames
  grounded : ∀ place name, disk.node? (place ++ [name]) ≠ none → disk.node? place = some .directory

theorem isTree_of_entries {disk : Disk}
    (checked : ∀ entry ∈ disk.entries, (∀ name ∈ entry.1, IsFileName name) ∧
      disk.node? entry.1.dropLast = some .directory) : disk.IsTree where
  named := hasFileNames_of_entries fun entry member => (checked entry member).1
  grounded place name stands := by
    obtain ⟨entry, member, spelled⟩ := (lookup_ne_none_iff _ _).mp (by simpa [node?] using stands)
    have above := (checked entry member).2
    rwa [spelled, List.dropLast_concat] at above

namespace IsTree

variable {disk : Disk} {place : Location}

theorem vacant (tree : disk.IsTree) (noDirectory : disk.node? place ≠ some .directory)
    (name : String) (rest : List String) : disk.node? (place ++ name :: rest) = none :=
  vacant_of_grounded (fun place name _ => tree.grounded place name) List.nil_prefix noDirectory rest

/-- At and below a file nothing stands but the file. -/
theorem eq_of_prefix (tree : disk.IsTree) (noDirectory : disk.node? place ≠ some .directory)
    {other : Location} (below : place <+: other) (stands : disk.node? other ≠ none) :
    other = place := by
  obtain ⟨rest, rfl⟩ := below
  cases rest with
  | nil => exact List.append_nil place
  | cons name rest => exact absurd (tree.vacant noDirectory name rest) stands

/-- Anything can be put into a directory in the place of what is no directory. -/
theorem put (tree : disk.IsTree) {name : String} (proper : IsFileName name)
    (directory : disk.node? place = some .directory)
    (noDirectory : disk.node? (place ++ [name]) ≠ some .directory) (node : Node) :
    (disk.put (place ++ [name]) node).IsTree := by
  have below := ne_nil_of_node? noDirectory
  constructor
  · intro other last stands
    rw [node?_put _ below] at stands
    split at stands
    · rename_i here
      rwa [List.singleton_inj.mp (List.append_inj' here rfl).2]
    · exact tree.named other last stands
  · intro other last stands
    rw [node?_put _ below] at stands ⊢
    split at stands
    · rename_i here
      obtain rfl := (List.append_inj' here rfl).1
      rw [if_neg (by simp), directory]
    · have above := tree.grounded other last stands
      rw [if_neg, above]
      rintro rfl
      exact noDirectory above

theorem erase (tree : disk.IsTree) (below : place ≠ []) : (disk.erase place).IsTree where
  named other name stands := by
    rw [node?_erase _ below] at stands
    split at stands
    · exact absurd rfl stands
    · exact tree.named other name stands
  grounded other name stands := by
    rw [node?_erase _ below] at stands ⊢
    split at stands
    · exact absurd rfl stands
    · rename_i apart
      rw [if_neg, tree.grounded other name stands]
      intro under
      rw [List.isPrefixOf_iff_prefix] at apart under
      exact apart (under.trans (List.prefix_append _ _))

theorem clear (tree : disk.IsTree) (place : Location) : (disk.clear place).IsTree where
  named other name stands := by
    rw [node?_clear] at stands
    split at stands
    · exact absurd rfl stands
    · exact tree.named other name stands
  grounded other name stands := by
    rw [node?_clear] at stands ⊢
    split at stands
    · exact absurd rfl stands
    · rename_i apart
      rw [if_neg, tree.grounded other name stands]
      intro under
      apply apart
      simp only [Bool.and_eq_true, bne_iff_ne, List.isPrefixOf_iff_prefix] at under ⊢
      refine ⟨under.1.trans (List.prefix_append _ _), ?_⟩
      rintro rfl
      exact Location.not_prefix_of_concat other name under.1

end IsTree

/-- Nothing off the zone is changed, and what stands is a tree still. -/
structure ChangesIn (zone : Set Location) (before after : Disk) : Prop where
  agree : AgreeOff zone before after
  tree : after.IsTree

namespace ChangesIn

variable {zone wider : Set Location} {disk before middle after : Disk} {place : Location}
  {path : Path} {name : String}

theorem refl (zone : Set Location) (tree : disk.IsTree) : ChangesIn zone disk disk :=
  ⟨.refl zone disk, tree⟩

theorem trans (first : ChangesIn zone before middle) (second : ChangesIn zone middle after) :
    ChangesIn zone before after :=
  ⟨first.agree.trans second.agree, second.tree⟩

theorem weaken (changes : ChangesIn zone before after) (inside : zone ⊆ wider) :
    ChangesIn wider before after :=
  ⟨changes.agree.weaken inside, changes.tree⟩

theorem endOf (changes : ChangesIn zone before after) (path : Path) :
    after.endOf path = before.endOf path :=
  endOf_congr changes.agree.home path

/-- Something new is put into a directory, where its path says. -/
theorem put (tree : disk.IsTree) (proper : IsFileName name)
    (inside : disk.endOf path ++ [name] ∈ zone) (located : disk.locate (path.join name) = .ok place)
    (noDirectory : disk.node? place ≠ some .directory) (node : Node) :
    ChangesIn zone disk (disk.put place node) := by
  obtain ⟨leads, -, rfl⟩ := leads_of_locate_join proper located
  exact ⟨.of_put inside node, tree.put proper leads.directory noDirectory node⟩

/-- A file is taken away, and nothing stood below it. -/
theorem eraseFile (tree : disk.IsTree) (inside : place ∈ zone)
    (noDirectory : disk.node? place ≠ some .directory) :
    ChangesIn zone disk (disk.erase place) := by
  refine ⟨.of_erase fun other below stands => ?_, tree.erase (ne_nil_of_node? noDirectory)⟩
  rwa [tree.eq_of_prefix noDirectory below stands]

end ChangesIn

/-- What stands at the place of a database and below it. -/
def zoneOf (top : Location) (database : String) : Set Location :=
  {place | top ++ [database] <+: place}

/-- The places of both files of a table. -/
def tableZone (top : Location) (database table : String) : Set Location :=
  {place | place ∈ filesOf top database table}

/-- The places of second files in the directory of a database. -/
def counterZone (top : Location) (database : String) : Set Location :=
  {place | ∃ file, counterEnding.toList <:+ file.toList ∧ place = top ++ [database] ++ [file]}

theorem tableZone_subset (top : Location) (database table : String) :
    tableZone top database table ⊆ zoneOf top database := by
  intro place member
  rcases List.mem_pair.mp member with rfl | rfl <;> exact List.prefix_append _ _

theorem counterZone_subset (top : Location) (database : String) :
    counterZone top database ⊆ zoneOf top database := by
  rintro place ⟨file, -, rfl⟩
  exact List.prefix_append _ _

/-- Names of tables tell their files apart. -/
theorem tableZone_disjoint {top place : Location} {database table other another : String}
    (named : IsName table) (otherNamed : IsName another)
    (first : place ∈ tableZone top database table) (second : place ∈ tableZone top other another) :
    database = other ∧ table = another := by
  have spelled : ∀ {file second : String}, top ++ [database] ++ [file] = top ++ [other] ++ [second] →
      database = other ∧ file = second := by
    intro file second same
    simpa [List.append_assoc] using same
  rcases List.mem_pair.mp first with rfl | rfl <;> rcases List.mem_pair.mp second with same | same
  · exact ⟨(spelled same).1, append_ending_inj (spelled same).2⟩
  · exact absurd (spelled same).2 (table_ne_counter named _)
  · exact absurd (spelled same).2.symm (table_ne_counter otherNamed _)
  · exact ⟨(spelled same).1, append_ending_inj (spelled same).2⟩

/-- What changed is now a file, and was no directory. -/
def WritesFiles (before after : Disk) : Prop :=
  ∀ place, after.node? place ≠ before.node? place →
    before.node? place ≠ some .directory ∧ ∃ content, after.node? place = some (.file content)

namespace WritesFiles

variable {before middle after disk : Disk} {place : Location}

theorem refl (disk : Disk) : WritesFiles disk disk :=
  fun _ changed => absurd rfl changed

theorem trans (first : WritesFiles before middle) (second : WritesFiles middle after) :
    WritesFiles before after := by
  intro place changed
  by_cases earlier : middle.node? place = before.node? place
  · rw [← earlier] at changed ⊢
    exact second place changed
  · obtain ⟨noDirectory, content, file⟩ := first place earlier
    by_cases later : after.node? place = middle.node? place
    · exact ⟨noDirectory, content, later.trans file⟩
    · exact ⟨noDirectory, (second place later).2⟩

theorem put (noDirectory : disk.node? place ≠ some .directory) (content : ByteArray) :
    WritesFiles disk (disk.put place (.file content)) := by
  intro other changed
  rw [node?_put _ (ne_nil_of_node? noDirectory)] at changed ⊢
  split at changed
  · rename_i here
    rw [if_pos here]
    exact ⟨here ▸ noDirectory, content, rfl⟩
  · exact absurd rfl changed

end WritesFiles

end Disk

namespace DiskM

open Disk

variable {path : Path} {name : String} {zone : Set Location} {disk : Disk}

theorem writeText_changes (tree : disk.IsTree) (proper : IsFileName name)
    (inside : disk.endOf path ++ [name] ∈ zone) (text : String) :
    ChangesIn zone disk (left (writeText (path.join name) text disk)) := by
  cases outcome : writeText (path.join name) text disk with
  | ok result after =>
      obtain ⟨place, located, noDirectory, rfl⟩ := writeText_eq_ok outcome
      exact .put tree proper inside located noDirectory _
  | error fault after =>
      rw [left, (writeText_eq_error outcome).1]
      exact .refl zone tree

theorem createFile_changes (tree : disk.IsTree) (proper : IsFileName name)
    (inside : disk.endOf path ++ [name] ∈ zone) :
    ChangesIn zone disk (left (createFile (path.join name) disk)) := by
  cases outcome : createFile (path.join name) disk with
  | ok result after =>
      obtain ⟨place, located, free, rfl⟩ := createFile_eq_ok outcome
      exact .put tree proper inside located (noDirectory_of_free free) _
  | error fault after =>
      rw [left, (createFile_eq_error outcome).1]
      exact .refl zone tree

theorem makeDirectory_changes (tree : disk.IsTree) (proper : IsFileName name)
    (inside : disk.endOf path ++ [name] ∈ zone) :
    ChangesIn zone disk (left (makeDirectory (path.join name) disk)) := by
  rw [makeDirectory_apply, locateNew_join proper]
  cases located : disk.locate (path.join name) with
  | error fault => exact .refl zone tree
  | ok place =>
      dsimp only
      cases stored : disk.node? place with
      | some node => exact .refl zone tree
      | none => exact .put tree proper inside located (noDirectory_of_free stored) _

theorem removeFile_changes (tree : disk.IsTree) (proper : IsFileName name)
    (inside : disk.endOf path ++ [name] ∈ zone) :
    ChangesIn zone disk (left (removeFile (path.join name) disk)) := by
  cases outcome : removeFile (path.join name) disk with
  | ok result after =>
      obtain ⟨place, content, located, stored, rfl⟩ := removeFile_eq_ok outcome
      obtain ⟨-, -, rfl⟩ := leads_of_locate_join proper located
      exact .eraseFile tree inside (by simp [stored])
  | error fault after =>
      rw [left, (removeFile_eq_error outcome).1]
      exact .refl zone tree

theorem removeDirectory_changes (tree : disk.IsTree) (proper : IsFileName name)
    (inside : ∀ rest, disk.endOf path ++ name :: rest ∈ zone) :
    ChangesIn zone disk (left (removeDirectory (path.join name) disk)) := by
  rw [removeDirectory_apply]
  cases located : disk.locate (path.join name) with
  | error fault => exact .refl zone tree
  | ok place =>
      obtain ⟨-, -, rfl⟩ := leads_of_locate_join proper located
      dsimp only
      split
      · exact .refl zone tree
      · exact .refl zone tree
      · split
        · exact .refl zone tree
        · split
          · refine ⟨.of_erase ?_, tree.erase (by simp)⟩
            rintro _ ⟨rest, rfl⟩ -
            simpa using inside rest
          · exact .refl zone tree

/-- The path is followed again on the disk on which the directory is empty. -/
theorem removeAll_changes (tree : disk.IsTree) (proper : IsFileName name)
    (inside : ∀ rest, disk.endOf path ++ name :: rest ∈ zone) :
    ChangesIn zone disk (left (removeAll (path.join name) disk)) := by
  rw [removeAll_apply]
  cases located : disk.locate (path.join name) with
  | error fault => exact .refl zone tree
  | ok place =>
      obtain ⟨-, -, rfl⟩ := leads_of_locate_join proper located
      dsimp only
      split
      · exact .refl zone tree
      · rename_i content stored
        exact .eraseFile tree (inside []) (by simp [stored])
      · have below : ∀ other, disk.endOf path ++ [name] <+: other → other ∈ zone := by
          rintro _ ⟨rest, rfl⟩
          simpa using inside rest
        have cleared : ChangesIn zone disk (disk.clear (disk.endOf path ++ [name])) :=
          ⟨.of_clear fun other under _ => below other under, tree.clear _⟩
        apply cleared.trans
        apply removeDirectory_changes cleared.tree proper
        rwa [cleared.endOf]

end DiskM

namespace Store

open Disk
open StoreM (ofDisk)

variable {store : Store} {top : Location} {database name : String} {table : Table} {disk : Disk}

/-- The path of a file of the table names one of its places. -/
theorem mem_tableZone (ends : disk.endOf store.root = top) (named : IsName database) {file : String}
    (isFile : IsFileOf name file) :
    disk.endOf (store.directory database) ++ [file] ∈ tableZone top database name := by
  rw [directory, endOf_join named.isFileName, ends]
  exact mem_filesOf isFile

theorem saveTable_changes (tree : disk.IsTree) (ends : disk.endOf store.root = top)
    (named : IsName database) (tableNamed : IsName table.name) :
    ChangesIn (tableZone top database table.name) disk
      (left (store.saveTable database table disk)) := by
  refine left_bind (ChangesIn (tableZone top database table.name) disk) ?_
    fun _ middle changes => ?_
  · rw [StoreM.left_ofDisk]
    exact DiskM.writeText_changes tree tableNamed.isFileName_table
      (mem_tableZone ends named (.inl rfl)) _
  · rw [writeCounter, StoreM.left_ofDisk]
    apply changes.trans
    exact DiskM.writeText_changes changes.tree tableNamed.isFileName_counter
      (mem_tableZone ((changes.endOf _).trans ends) named (.inr rfl)) _

theorem createTable_changes (tree : disk.IsTree) (ends : disk.endOf store.root = top)
    (named : IsName database) (tableNamed : IsName table.name) :
    ChangesIn (tableZone top database table.name) disk
      (left (store.createTable database table disk)) := by
  refine left_bind (ChangesIn (tableZone top database table.name) disk) ?_
    fun _ middle changes => ?_
  · rw [left_unlessTaken]
    exact DiskM.createFile_changes tree tableNamed.isFileName_table
      (mem_tableZone ends named (.inl rfl))
  · apply changes.trans
    exact saveTable_changes changes.tree ((changes.endOf _).trans ends) named tableNamed

theorem deleteTable_changes (tree : disk.IsTree) (ends : disk.endOf store.root = top)
    (named : IsName database) (tableNamed : IsName name) :
    ChangesIn (tableZone top database name) disk (left (store.deleteTable database name disk)) := by
  refine left_bind (ChangesIn (tableZone top database name) disk) ?_ fun _ middle changes => ?_
  · rw [StoreM.left_ofDisk]
    exact DiskM.removeFile_changes tree tableNamed.isFileName_table
      (mem_tableZone ends named (.inl rfl))
  · have second : ChangesIn (tableZone top database name) middle
        (left (DiskM.removeFile (counterPath (store.directory database) name) middle)) :=
      DiskM.removeFile_changes changes.tree tableNamed.isFileName_counter
        (mem_tableZone ((changes.endOf _).trans ends) named (.inr rfl))
    split <;> rename_i outcome <;> rw [outcome] at second <;> exact changes.trans second

theorem createDatabase_changes (tree : disk.IsTree) (ends : disk.endOf store.root = top)
    (named : IsName name) :
    ChangesIn (zoneOf top name) disk (left (store.createDatabase name disk)) := by
  rw [createDatabase, left_unlessTaken]
  apply DiskM.makeDirectory_changes tree named.isFileName
  rw [ends]
  exact List.prefix_rfl

theorem dropDatabase_changes (tree : disk.IsTree) (ends : disk.endOf store.root = top)
    (named : IsName name) :
    ChangesIn (zoneOf top name) disk (left (store.dropDatabase name disk)) := by
  by_cases isDirectory : disk.isDirectory (store.directory name)
  · obtain ⟨place, located, stands⟩ := Disk.isDirectory_iff.mp isDirectory
    rw [dropDatabase_apply located stands]
    refine left_bind (ChangesIn (zoneOf top name) disk) ?_ fun _ middle changes => ?_
    · rw [StoreM.left_ofDisk]
      refine left_forM (ChangesIn (zoneOf top name) disk) (fun entry member middle changes => ?_)
        (.refl _ tree)
      have proper := tree.named place entry (mem_names_iff.mp member)
      apply changes.trans
      apply DiskM.removeAll_changes changes.tree proper
      intro rest
      rw [directory, endOf_join named.isFileName, changes.endOf, ends]
      exact List.prefix_append _ _
    · rw [StoreM.left_ofDisk]
      apply changes.trans
      apply DiskM.removeDirectory_changes changes.tree named.isFileName
      intro rest
      rw [changes.endOf, ends]
      exact ⟨rest, by simp⟩
  · rw [dropDatabase_unknown (by simpa using isDirectory)]
    exact .refl _ tree

/-- Names of second files are proper if they hold nothing that a name cannot hold. -/
theorem isFileName_counter {name : String} (slashFree : '/' ∉ name.toList)
    (zeroFree : '\x00' ∉ name.toList) : IsFileName (name ++ counterEnding) := by
  have long : ∀ short : String, short.toList.length < counterEnding.toList.length →
      name ++ counterEnding ≠ short := by
    rintro short bound rfl
    rw [String.toList_append, List.length_append] at bound
    omega
  have free : ∀ c ∉ name.toList, c ∉ counterEnding.toList → c ∉ (name ++ counterEnding).toList := by
    intro c absent other
    rw [String.toList_append, List.mem_append, not_or]
    exact ⟨absent, other⟩
  exact ⟨long "" (by decide), long "." (by decide), long ".." (by decide),
    free '/' slashFree (by decide), free '\x00' zeroFree (by decide)⟩

/-- The second file that is read stands beside the first one. -/
theorem isFileName_counter_of_stem {entry stem : String} (proper : IsFileName entry)
    (isStem : stem? entry = some stem) : IsFileName (stem ++ counterEnding) := by
  obtain ⟨rfl, -⟩ := stem?_eq_some isStem
  have inside : stem.toList ⊆ (stem ++ tableEnding).toList := by
    rw [String.toList_append]
    exact List.subset_append_left _ _
  exact isFileName_counter (fun member => proper.slashFree (inside member))
    fun member => proper.zeroFree (inside member)

/-- The second file that is written is named after the table, in lower case. -/
theorem isFileName_counter_lowercase {entry stem : String} (proper : IsFileName entry)
    (isStem : stem? entry = some stem) : IsFileName (lowercase stem ++ counterEnding) := by
  obtain ⟨rfl, -⟩ := stem?_eq_some isStem
  have free : ∀ c, c.toNat < 0x80 → ¬ c.isLower → c ∉ (stem ++ tableEnding).toList →
      c ∉ (lowercase stem).toList := by
    intro c ascii noLetter absent member
    rw [String.toList_append, List.mem_append, not_or] at absent
    exact absent.1 (mem_of_mem_lowercase member ascii noLetter)
  exact isFileName_counter (free '/' (by decide) (by decide) proper.slashFree)
    (free '\x00' (by decide) (by decide) proper.zeroFree)

theorem loadDatabase_changes (tree : disk.IsTree) (ends : disk.endOf store.root = top)
    (named : IsName name) :
    ChangesIn (counterZone top name) disk (left (store.loadDatabase name disk)) ∧
      WritesFiles disk (left (store.loadDatabase name disk)) := by
  by_cases isDirectory : disk.isDirectory (store.directory name)
  · obtain ⟨place, located, directory⟩ := Disk.isDirectory_iff.mp isDirectory
    rw [loadDatabase_apply (Disk.Leads.of_locate located directory) located]
    refine left_foldlM (fun after => ChangesIn (counterZone top name) disk after ∧
      WritesFiles disk after) (fun entry member sofar middle sofarKept => ?_)
      ⟨.refl _ tree, .refl disk⟩
    obtain ⟨changes, writes⟩ := sofarKept
    have proper := tree.named place entry (mem_names_iff.mp member)
    rw [left_loadEntry]
    cases written : entryRestoration? (store.directory name) entry middle with
    | none => exact ⟨changes, writes⟩
    | some write =>
        obtain ⟨spot, content⟩ := write
        obtain ⟨-, stem, isStem, -, found⟩ := entryRestoration?_eq_some written
        have noDirectory := noDirectory_of_entryRestoration? written
        have inside : middle.endOf (store.directory name) ++ [lowercase stem ++ counterEnding] ∈
            counterZone top name := by
          rw [Store.directory, endOf_join named.isFileName, changes.endOf, ends]
          refine ⟨_, ?_, rfl⟩
          rw [String.toList_append]
          exact List.suffix_append _ _
        exact ⟨changes.trans (.put changes.tree (isFileName_counter_lowercase proper isStem) inside
          found noDirectory _), writes.trans (.put noDirectory content)⟩
  · rw [loadDatabase_unknown (by simpa using isDirectory)]
    exact ⟨.refl _ tree, .refl disk⟩

end Store

end TextTables
