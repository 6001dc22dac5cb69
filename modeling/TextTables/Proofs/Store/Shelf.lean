import TextTables.Proofs.Database.Order
import TextTables.Proofs.Disk.Changes
import TextTables.Proofs.Disk.Operations
import TextTables.Proofs.Store.FileNames
import TextTables.Proofs.Table.Sound
import TextTables.Proofs.Text.Lines

/-!
# What stands in the directory of a database

The directory of a database holds the two files of each table. Besides them there can be strays:
table files whose second file the length of its name forbids.
-/

namespace TextTables

open Text

/-- The tables in the directory of a database, and the names of the strays besides them. -/
structure Shelf where
  tables : List Table
  strays : List String

namespace Shelf

def empty : Shelf := ⟨[], []⟩

/-- The shelf with the table added, or put in the place of the one with its key. -/
def insert (shelf : Shelf) (table : Table) : Shelf :=
  { shelf with tables := Database.place table shelf.tables }

def update (shelf : Shelf) (table : Table) : Shelf :=
  { shelf with
    tables := shelf.tables.map fun other => if other.key = table.key then table else other }

def remove (shelf : Shelf) (table : Table) : Shelf :=
  { shelf with tables := shelf.tables.filter fun other => other.key != table.key }

def strand (shelf : Shelf) (name : String) : Shelf :=
  { shelf with strays := name :: shelf.strays }

end Shelf

/-- The file of a table of this name can be made, but not the one with the last primary key. -/
structure IsStray (directory : Path) (name : String) : Prop where
  named : IsName name
  fits : directory.CanName (name ++ tableEnding)
  long : ¬ directory.CanName (name ++ counterEnding)

namespace Disk

/-- The disk with both files of the table written into the directory at the place. -/
def putTable (disk : Disk) (place : Location) (table : Table) : Disk :=
  (disk.put (place ++ [table.name ++ tableEnding]) (.file table.render.toUTF8)).put
    (place ++ [table.name ++ counterEnding]) (.file table.renderKey.toUTF8)

/-- The disk with both files of the table gone from the directory at the place. -/
def eraseTable (disk : Disk) (place : Location) (table : Table) : Disk :=
  (disk.erase (place ++ [table.name ++ tableEnding])).erase
    (place ++ [table.name ++ counterEnding])

/-- The directory at the place holds both files of the table, whatever else it holds. -/
structure Stores (disk : Disk) (directory : Path) (place : Location) (table : Table) : Prop where
  sound : table.Sound
  fits : directory.CanName (table.name ++ counterEnding)
  tableFile : disk.node? (place ++ [table.name ++ tableEnding]) =
    some (.file table.render.toUTF8)
  counterFile : disk.node? (place ++ [table.name ++ counterEnding]) =
    some (.file table.renderKey.toUTF8)

/-- The directory at the place holds the files of the shelf, and no others. -/
structure Holds (disk : Disk) (directory : Path) (place : Location) (shelf : Shelf) : Prop where
  sound : ∀ table ∈ shelf.tables, table.Sound
  sorted : Database.Sorted shelf.tables
  fits : ∀ table ∈ shelf.tables, directory.CanName (table.name ++ counterEnding)
  tableFile : ∀ table ∈ shelf.tables,
    disk.node? (place ++ [table.name ++ tableEnding]) = some (.file table.render.toUTF8)
  counterFile : ∀ table ∈ shelf.tables,
    disk.node? (place ++ [table.name ++ counterEnding]) = some (.file table.renderKey.toUTF8)
  stray : ∀ name ∈ shelf.strays, IsStray directory name ∧
    ∃ content, disk.node? (place ++ [name ++ tableEnding]) = some (.file content)
  entry : ∀ file, disk.node? (place ++ [file]) ≠ none →
    (∃ table ∈ shelf.tables,
        file = table.name ++ tableEnding ∨ file = table.name ++ counterEnding) ∨
      ∃ name ∈ shelf.strays, file = name ++ tableEnding
  flat : ∀ file inner rest, disk.node? (place ++ file :: inner :: rest) = none

end Disk

/-- The key of a sound table is its name. -/
theorem Table.Sound.key {table : Table} (sound : table.Sound) : table.key = table.name :=
  sound.named.lower

namespace Disk

variable {disk other : Disk} {directory : Path} {place : Location} {shelf : Shelf}

theorem node?_putTable (disk : Disk) (place : Location) (table : Table) (other : Location) :
    (disk.putTable place table).node? other =
      if other = place ++ [table.name ++ counterEnding] then some (.file table.renderKey.toUTF8)
      else if other = place ++ [table.name ++ tableEnding] then some (.file table.render.toUTF8)
      else disk.node? other := by
  rw [putTable, node?_put _ (by simp), node?_put _ (by simp)]

theorem node?_eraseTable (disk : Disk) (place : Location) (table : Table) (other : Location) :
    (disk.eraseTable place table).node? other =
      if (place ++ [table.name ++ counterEnding]).isPrefixOf other then none
      else if (place ++ [table.name ++ tableEnding]).isPrefixOf other then none
      else disk.node? other := by
  rw [eraseTable, node?_erase _ (by simp), node?_erase _ (by simp)]

theorem ChangedBelow.putTable (disk : Disk) (place : Location) (table : Table) :
    ChangedBelow place disk (disk.putTable place table) :=
  (ChangedBelow.put disk place _ _).trans (ChangedBelow.put _ place _ _)

theorem holds_empty (vacant : ∀ file rest, disk.node? (place ++ file :: rest) = none) :
    disk.Holds directory place .empty where
  sound := by simp [Shelf.empty]
  sorted := List.Pairwise.nil
  fits := by simp [Shelf.empty]
  tableFile := by simp [Shelf.empty]
  counterFile := by simp [Shelf.empty]
  stray := by simp [Shelf.empty]
  entry file stands := absurd (vacant file []) stands
  flat file inner rest := vacant file (inner :: rest)

namespace Holds

theorem stores (holds : disk.Holds directory place shelf) {table : Table}
    (member : table ∈ shelf.tables) : disk.Stores directory place table :=
  ⟨holds.sound table member, holds.fits table member, holds.tableFile table member,
    holds.counterFile table member⟩

/-- Only what stands below the directory counts. -/
theorem congr (holds : disk.Holds directory place shelf)
    (same : ∀ file rest, other.node? (place ++ file :: rest) = disk.node? (place ++ file :: rest)) :
    other.Holds directory place shelf where
  sound := holds.sound
  sorted := holds.sorted
  fits := holds.fits
  tableFile table member := (same _ []).trans (holds.tableFile table member)
  counterFile table member := (same _ []).trans (holds.counterFile table member)
  stray name member := by
    rw [same _ []]
    exact holds.stray name member
  entry file stands := by
    rw [same file []] at stands
    exact holds.entry file stands
  flat file inner rest := (same _ _).trans (holds.flat file inner rest)

/-- Every entry is a file that its path names. -/
theorem entry_isFile (holds : disk.Holds directory place shelf) {file : String}
    (stands : disk.node? (place ++ [file]) ≠ none) :
    IsFileName file ∧ directory.CanName file ∧
      ∃ content, disk.node? (place ++ [file]) = some (.file content) := by
  rcases holds.entry file stands with ⟨table, member, rfl | rfl⟩ | ⟨name, member, rfl⟩
  · have named := (holds.sound table member).named
    exact ⟨named.isFileName_table, (holds.fits table member).table named, _,
      holds.tableFile table member⟩
  · have named := (holds.sound table member).named
    exact ⟨named.isFileName_counter, holds.fits table member, _, holds.counterFile table member⟩
  · obtain ⟨stray, stored⟩ := holds.stray name member
    exact ⟨stray.named.isFileName_table, stray.fits, stored⟩

theorem entry_ne_directory (holds : disk.Holds directory place shelf) (file : String) :
    disk.node? (place ++ [file]) ≠ some .directory := by
  intro directory
  obtain ⟨-, -, content, stored⟩ :=
    holds.entry_isFile (by rw [directory]; exact Option.some_ne_none _)
  rw [directory] at stored
  cases stored

theorem name_ne (holds : disk.Holds directory place shelf) {table changed : Table}
    (member : table ∈ shelf.tables) (sound : changed.Sound) (different : table.key ≠ changed.key) :
    table.name ≠ changed.name := by
  rwa [(holds.sound table member).key, sound.key] at different

/-- Names of which both files are short enough are not those of strays. -/
theorem ne_stray (holds : disk.Holds directory place shelf) {name stray : String}
    (fits : directory.CanName (name ++ counterEnding)) (member : stray ∈ shelf.strays) :
    name ≠ stray := by
  rintro rfl
  exact (holds.stray name member).1.long fits

/-- Writing both files of a table adds it, in the place of the one with its name. -/
theorem putTable {changed : Table} {after : List Table} (holds : disk.Holds directory place shelf)
    (sound : changed.Sound) (fits : directory.CanName (changed.name ++ counterEnding))
    (sorted : Database.Sorted after)
    (members : ∀ table, table ∈ after ↔
      table = changed ∨ (table ∈ shelf.tables ∧ table.key ≠ changed.key)) :
    (disk.putTable place changed).Holds directory place ⟨after, shelf.strays⟩ where
  sound table member := by
    rcases (members table).mp member with rfl | ⟨old, -⟩
    · exact sound
    · exact holds.sound table old
  sorted := sorted
  fits table member := by
    rcases (members table).mp member with rfl | ⟨old, -⟩
    · exact fits
    · exact holds.fits table old
  tableFile table member := by
    rw [node?_putTable]
    rcases (members table).mp member with rfl | ⟨old, different⟩
    · have distinct := table_ne_counter sound.named table.name
      simp [distinct]
    · have distinct := table_ne_counter (holds.sound table old).named changed.name
      have other : table.name ++ tableEnding ≠ changed.name ++ tableEnding :=
        fun same => holds.name_ne old sound different (append_ending_inj same)
      simpa [distinct, other] using holds.tableFile table old
  counterFile table member := by
    rw [node?_putTable]
    rcases (members table).mp member with rfl | ⟨old, different⟩
    · simp
    · have distinct := (table_ne_counter sound.named table.name).symm
      have other : table.name ++ counterEnding ≠ changed.name ++ counterEnding :=
        fun same => holds.name_ne old sound different (append_ending_inj same)
      simpa [distinct, other] using holds.counterFile table old
  stray name member := by
    obtain ⟨stray, stored⟩ := holds.stray name member
    have distinct := table_ne_counter stray.named changed.name
    have other : name ++ tableEnding ≠ changed.name ++ tableEnding :=
      fun same => holds.ne_stray fits member (append_ending_inj same).symm
    rw [node?_putTable, if_neg (by simpa using distinct), if_neg (by simpa using other)]
    exact ⟨stray, stored⟩
  entry file stands := by
    by_cases counter : file = changed.name ++ counterEnding
    · exact .inl ⟨changed, (members changed).mpr (.inl rfl), .inr counter⟩
    · by_cases main : file = changed.name ++ tableEnding
      · exact .inl ⟨changed, (members changed).mpr (.inl rfl), .inl main⟩
      · rw [node?_putTable, if_neg (by simpa using counter), if_neg (by simpa using main)] at stands
        rcases holds.entry file stands with ⟨table, member, named⟩ | stray
        · refine .inl ⟨table, (members table).mpr (.inr ⟨member, ?_⟩), named⟩
          intro same
          rw [(holds.sound table member).key, sound.key] at same
          rcases named with rfl | rfl
          · exact main (by rw [same])
          · exact counter (by rw [same])
        · exact .inr stray
  flat file inner rest := by
    rw [node?_putTable, if_neg (by simp), if_neg (by simp)]
    exact holds.flat file inner rest

/-- A table file that cannot have a second one can stand besides the tables. -/
theorem strand (holds : disk.Holds directory place shelf) {name : String}
    (stray : IsStray directory name) (content : ByteArray) :
    (disk.put (place ++ [name ++ tableEnding]) (.file content)).Holds directory place
      (shelf.strand name) where
  sound := holds.sound
  sorted := holds.sorted
  fits := holds.fits
  tableFile table member := by
    have other : table.name ++ tableEnding ≠ name ++ tableEnding := by
      intro same
      apply stray.long
      rw [← append_ending_inj same]
      exact holds.fits table member
    rw [node?_put _ (by simp), if_neg (by simpa using other)]
    exact holds.tableFile table member
  counterFile table member := by
    have other := (table_ne_counter stray.named table.name).symm
    rw [node?_put _ (by simp), if_neg (by simpa using other)]
    exact holds.counterFile table member
  stray another member := by
    rw [node?_put _ (by simp)]
    by_cases here : another = name
    · subst here
      exact ⟨stray, content, by simp⟩
    · have before : another ∈ shelf.strays := (List.mem_cons.mp member).resolve_left here
      have other : another ++ tableEnding ≠ name ++ tableEnding :=
        fun same => here (append_ending_inj same)
      rw [if_neg (by simpa using other)]
      exact holds.stray another before
  entry file stands := by
    rw [node?_put _ (by simp)] at stands
    by_cases here : file = name ++ tableEnding
    · exact .inr ⟨name, List.mem_cons_self, here⟩
    · rw [if_neg (by simpa using here)] at stands
      rcases holds.entry file stands with table | ⟨another, member, named⟩
      · exact .inl table
      · exact .inr ⟨another, List.mem_cons_of_mem _ member, named⟩
  flat file inner rest := by
    rw [node?_put _ (by simp), if_neg (by simp)]
    exact holds.flat file inner rest

theorem mem_remove (holds : disk.Holds directory place shelf) {table other : Table}
    (member : table ∈ shelf.tables) (inside : other ∈ (shelf.remove table).tables) :
    other ∈ shelf.tables ∧ other.name ≠ table.name := by
  obtain ⟨old, different⟩ := List.mem_filter.mp inside
  exact ⟨old, holds.name_ne old (holds.sound table member) (bne_iff_ne.mp different)⟩

/-- Erasing both files of a table takes it away. -/
theorem eraseTable (holds : disk.Holds directory place shelf) {table : Table}
    (member : table ∈ shelf.tables) :
    (disk.eraseTable place table).Holds directory place (shelf.remove table) where
  sound other inside := holds.sound other (holds.mem_remove member inside).1
  sorted := holds.sorted.sublist List.filter_sublist
  fits other inside := holds.fits other (holds.mem_remove member inside).1
  tableFile other inside := by
    obtain ⟨old, different⟩ := holds.mem_remove member inside
    have distinct := table_ne_counter (holds.sound other old).named table.name
    have apart : other.name ++ tableEnding ≠ table.name ++ tableEnding :=
      fun same => different (append_ending_inj same)
    rw [node?_eraseTable, if_neg (by simpa using distinct.symm), if_neg (by simpa using apart.symm)]
    exact holds.tableFile other old
  counterFile other inside := by
    obtain ⟨old, different⟩ := holds.mem_remove member inside
    have distinct := (table_ne_counter (holds.sound table member).named other.name).symm
    have apart : other.name ++ counterEnding ≠ table.name ++ counterEnding :=
      fun same => different (append_ending_inj same)
    rw [node?_eraseTable, if_neg (by simpa using apart.symm), if_neg (by simpa using distinct.symm)]
    exact holds.counterFile other old
  stray name inside := by
    obtain ⟨stray, stored⟩ := holds.stray name inside
    have distinct := table_ne_counter stray.named table.name
    have apart : name ++ tableEnding ≠ table.name ++ tableEnding :=
      fun same => holds.ne_stray (holds.fits table member) inside (append_ending_inj same).symm
    rw [node?_eraseTable, if_neg (by simpa using distinct.symm), if_neg (by simpa using apart.symm)]
    exact ⟨stray, stored⟩
  entry file stands := by
    have counter : file ≠ table.name ++ counterEnding := by
      rintro rfl
      simp [node?_eraseTable] at stands
    have main : file ≠ table.name ++ tableEnding := by
      rintro rfl
      simp [node?_eraseTable] at stands
    rw [node?_eraseTable, if_neg (by simpa using counter.symm), if_neg (by simpa using main.symm)]
      at stands
    rcases holds.entry file stands with ⟨other, old, named⟩ | stray
    · refine .inl ⟨other, List.mem_filter.mpr ⟨old, ?_⟩, named⟩
      rw [bne_iff_ne, (holds.sound other old).key, (holds.sound table member).key]
      intro same
      rcases named with rfl | rfl
      · exact main (by rw [same])
      · exact counter (by rw [same])
    · exact .inr stray
  flat file inner rest := by
    rw [node?_eraseTable, holds.flat file inner rest]
    simp

end Holds

end Disk

end TextTables
