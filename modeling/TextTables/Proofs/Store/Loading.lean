import TextTables.Proofs.Store.Saving

/-!
# Reading the tables of a database

A directory that holds tables is read back as exactly these tables, and nothing is written on the
way, as long as the last primary key of each can be read. It cannot where the name of its file is
too long, or where it has more than 64 bits, and then the directory is not read at all.
-/

namespace TextTables

open Text

variable {disk : Disk} {directory : Path} {place : Location} {shelf : Shelf}

/-- The last primary key has no more bits than are read back. -/
def Table.HasShortKey (table : Table) : Prop :=
  table.lastKey < UInt64.size

/-- All tables of the shelf can be read back. -/
structure Shelf.Readable (shelf : Shelf) : Prop where
  noStrays : shelf.strays = []
  short : ∀ table ∈ shelf.tables, table.HasShortKey

namespace Store

theorem readCounter_ok (leads : disk.Leads directory place) {table : Table}
    (stores : disk.Stores directory place table) :
    readCounter (counterPath directory table.name) disk =
      if table.lastKey < UInt64.size then .ok (some table.lastKey) disk
      else .error (.corruptFile (counterPath directory table.name).text .badCounter) disk := by
  have read := DiskM.readText_entry leads stores.sound.named.isFileName_counter stores.fits
    stores.counterFile
  simp only [readCounter, counterPath, read, Table.parseKey_renderKey]
  split <;> rename_i short
  · split at short
    · rename_i small
      cases short
      rw [if_pos small]
    · cases short
  · split at short
    · cases short
    · rename_i large
      cases short
      rw [if_neg large]

theorem readTable_ok (leads : disk.Leads directory place) {table : Table}
    (stores : disk.Stores directory place table) :
    StoreM.ofDisk (DiskM.readText (tablePath directory table.name)) disk =
      .ok table.render disk := by
  have named := stores.sound.named
  exact StoreM.ofDisk_ok (DiskM.readText_entry leads named.isFileName_table
    (stores.fits.table named) stores.tableFile)

/-- A table is read back from its two files whole, if its last primary key is. -/
theorem loadTable_ok (leads : disk.Leads directory place) {table : Table}
    (stores : disk.Stores directory place table) (short : table.HasShortKey) :
    loadTable directory table.name disk = .ok table disk := by
  have parsed : Table.parse table.name table.render = .ok { table with lastKey := 0 } := by
    rw [Table.parse_render stores.sound.printable, stores.sound.named.lower]
  have counter := (readCounter_ok leads stores).trans (if_pos short)
  apply (Work.bind_ok (readTable_ok leads stores) _).trans
  rw [parsed]
  exact (Work.bind_ok rfl _).trans (Work.bind_ok counter _)

theorem loadTable_long (leads : disk.Leads directory place) {table : Table}
    (stores : disk.Stores directory place table) (long : ¬ table.HasShortKey) :
    ∃ error, loadTable directory table.name disk = .error error disk := by
  have parsed : Table.parse table.name table.render = .ok { table with lastKey := 0 } := by
    rw [Table.parse_render stores.sound.printable, stores.sound.named.lower]
  have counter := (readCounter_ok leads stores).trans (if_neg long)
  refine ⟨.corruptFile (counterPath directory table.name).text .badCounter, ?_⟩
  apply (Work.bind_ok (readTable_ok leads stores) _).trans
  rw [parsed]
  exact (Work.bind_ok rfl _).trans (Work.bind_error counter _)

/-- Where the last primary key cannot be read, the table cannot be read. -/
theorem loadTable_uncounted {stem : String} {error : Error}
    (counter : readCounter (counterPath directory stem) disk = .error error disk) :
    ∃ error, loadTable directory stem disk = .error error disk := by
  rcases DiskM.readText_cases (tablePath directory stem) disk with ⟨text, read⟩ | ⟨fault, unread⟩
  · have first := StoreM.ofDisk_ok read
    cases parsed : Table.parse stem text with
    | error cause =>
        refine ⟨.corruptFile (tablePath directory stem).text cause, ?_⟩
        apply (Work.bind_ok first _).trans
        rw [parsed]
        exact Work.bind_error rfl _
    | ok table =>
        refine ⟨error, ?_⟩
        apply (Work.bind_ok first _).trans
        rw [parsed]
        exact (Work.bind_ok rfl _).trans (Work.bind_error counter _)
  · exact ⟨_, Work.bind_error (StoreM.ofDisk_error unread) _⟩

/-- Where the second file of a table cannot be named, the table cannot be read. -/
theorem loadTable_stray (leads : disk.Leads directory place) {stem : String}
    (stray : IsStray directory stem) :
    ∃ error, loadTable directory stem disk = .error error disk := by
  have located := leads.locate_join stray.named.isFileName_counter
  apply loadTable_uncounted
  rw [readCounter, DiskM.readText_apply, counterPath, located, if_neg stray.long]

theorem loadEntry_apply (directory : Path) (database : Database) (entry : String) (disk : Disk) :
    loadEntry directory database entry disk =
      if disk.isFile (directory.join entry) then
        match stem? entry with
        | none => .ok database disk
        | some stem =>
            (do ofExcept (database.addTable (← loadTable directory stem)) : StoreM Database) disk
      else .ok database disk := by
  apply (Work.bind_ok rfl _).trans
  by_cases file : disk.isFile (directory.join entry)
  · simp only [file]
    cases stem? entry <;> rfl
  · simp only [file]
    rfl

theorem isFile_entry (leads : disk.Leads directory place)
    (holds : disk.Holds directory place shelf) {entry : String}
    (stands : disk.node? (place ++ [entry]) ≠ none) : disk.isFile (directory.join entry) := by
  obtain ⟨proper, fits, content, file⟩ := holds.entry_isFile stands
  simp [Disk.isFile, Disk.lookup?, leads.locate_join proper, fits, file]

/-- The entry is the file of a table that cannot be read. -/
def IsUnreadable (shelf : Shelf) (entry : String) : Prop :=
  (∃ table ∈ shelf.tables, entry = table.name ++ tableEnding ∧ ¬ table.HasShortKey) ∨
    ∃ name ∈ shelf.strays, entry = name ++ tableEnding

/-- What reading an entry comes to: its table is taken in, or nothing if it is a second file. -/
inductive Brings (disk : Disk) (directory : Path) (shelf : Shelf) (entry : String) : Prop
  | table {table : Table} (member : table ∈ shelf.tables)
      (named : entry = table.name ++ tableEnding)
      (loads : ∀ database, loadEntry directory database entry disk =
        (ofExcept (database.addTable table) : StoreM Database) disk)
  | nothing (foreign : ∀ table ∈ shelf.tables, entry ≠ table.name ++ tableEnding)
      (skips : ∀ database, loadEntry directory database entry disk = .ok database disk)

theorem loadEntry_readable (leads : disk.Leads directory place)
    (holds : disk.Holds directory place shelf) {entry : String}
    (stands : disk.node? (place ++ [entry]) ≠ none)
    (readable : ¬ IsUnreadable shelf entry) : Brings disk directory shelf entry := by
  have isFile := isFile_entry leads holds stands
  rcases holds.entry entry stands with ⟨table, member, rfl | rfl⟩ | ⟨name, member, rfl⟩
  · have short : table.HasShortKey := by
      by_contra long
      exact readable (.inl ⟨table, member, rfl, long⟩)
    refine .table member rfl fun database => ?_
    rw [loadEntry_apply, if_pos isFile, stem?_table (holds.sound table member).named]
    exact Work.bind_ok (loadTable_ok leads (holds.stores member) short) _
  · refine .nothing ?_ fun database => ?_
    · intro other inside same
      exact table_ne_counter (holds.sound other inside).named table.name same.symm
    · rw [loadEntry_apply, if_pos isFile, stem?_counter]
  · exact absurd (.inr ⟨name, member, rfl⟩) readable

theorem loadEntry_unreadable (leads : disk.Leads directory place)
    (holds : disk.Holds directory place shelf) {entry : String}
    (stands : disk.node? (place ++ [entry]) ≠ none)
    (unreadable : IsUnreadable shelf entry) (database : Database) :
    ∃ error, loadEntry directory database entry disk = .error error disk := by
  have isFile := isFile_entry leads holds stands
  rw [loadEntry_apply, if_pos isFile]
  rcases unreadable with ⟨table, member, rfl, long⟩ | ⟨name, member, rfl⟩
  · rw [stem?_table (holds.sound table member).named]
    obtain ⟨error, failed⟩ := loadTable_long leads (holds.stores member) long
    exact ⟨error, Work.bind_error failed _⟩
  · have stray := (holds.stray name member).1
    rw [stem?_table stray.named]
    obtain ⟨error, failed⟩ := loadTable_stray leads stray
    exact ⟨error, Work.bind_error failed _⟩

/-- Reading one entry takes in the table whose file it is. -/
theorem loadEntry_ok (holds : disk.Holds directory place shelf) {entry : String}
    (brings : Brings disk directory shelf entry) (database : Database)
    (sorted : Database.Sorted database.tables)
    (fresh : ∀ table ∈ shelf.tables, table.name ++ tableEnding = entry →
      ∀ other ∈ database.tables, other.key ≠ table.key) :
    ∃ loaded, Database.Sorted loaded ∧
      loadEntry directory database entry disk = .ok { database with tables := loaded } disk ∧
      ∀ table, table ∈ loaded ↔
        table ∈ database.tables ∨ (table ∈ shelf.tables ∧ table.name ++ tableEnding = entry) := by
  cases brings with
  | @table table member named loads =>
      have apart := fresh table member named.symm
      refine ⟨Database.place table database.tables, sorted.place apart, ?_, fun other => ?_⟩
      · rw [loads, Database.addTable_ok apart]
        rfl
      · rw [Database.mem_place]
        constructor
        · rintro (rfl | old)
          · exact .inr ⟨member, named.symm⟩
          · exact .inl old
        · rintro (old | ⟨inside, same⟩)
          · exact .inr old
          · have key : other.key = table.key := by
              rw [(holds.sound other inside).key, (holds.sound table member).key]
              exact append_ending_inj (same.trans named)
            exact .inl (holds.sorted.eq_of_key inside member key)
  | nothing foreign skips =>
      refine ⟨database.tables, sorted, skips database, fun other => ?_⟩
      constructor
      · exact Or.inl
      · rintro (old | ⟨inside, same⟩)
        · exact old
        · exact absurd same.symm (foreign other inside)

/-- Entries that are listed once bring the tables whose files are among them. -/
theorem loadEntries_ok (holds : disk.Holds directory place shelf) {entries : List String}
    (database : Database) (once : entries.Nodup)
    (brings : ∀ entry ∈ entries, Brings disk directory shelf entry)
    (sorted : Database.Sorted database.tables)
    (fresh : ∀ table ∈ shelf.tables, table.name ++ tableEnding ∈ entries →
      ∀ other ∈ database.tables, other.key ≠ table.key) :
    ∃ loaded, Database.Sorted loaded ∧
      entries.foldlM (loadEntry directory) database disk =
        .ok { database with tables := loaded } disk ∧
      ∀ table, table ∈ loaded ↔
        table ∈ database.tables ∨ (table ∈ shelf.tables ∧ table.name ++ tableEnding ∈ entries) := by
  induction entries generalizing database with
  | nil => exact ⟨database.tables, sorted, rfl, by simp⟩
  | cons entry rest inductionHypothesis =>
      obtain ⟨notAgain, restOnce⟩ := List.nodup_cons.mp once
      have restBrings := fun other member => brings other (List.mem_cons_of_mem entry member)
      obtain ⟨first, firstSorted, read, firstMembers⟩ :=
        loadEntry_ok holds (brings entry List.mem_cons_self) database sorted
          fun table member named => fresh table member (named ▸ List.mem_cons_self)
      -- What the entry has brought does not come again, since it is listed once.
      have restFresh : ∀ table ∈ shelf.tables, table.name ++ tableEnding ∈ rest →
          ∀ other ∈ first, other.key ≠ table.key := by
        intro table member listed other present same
        rcases (firstMembers other).mp present with old | ⟨inside, named⟩
        · exact fresh table member (List.mem_cons_of_mem _ listed) other old same
        · have one := holds.sorted.eq_of_key inside member same
          rw [← one, named] at listed
          exact notAgain listed
      obtain ⟨loaded, order, folded, members⟩ := inductionHypothesis
        { database with tables := first } restOnce restBrings firstSorted restFresh
      refine ⟨loaded, order, ?_, fun table => ?_⟩
      · rw [List.foldlM_cons]
        exact (Work.bind_ok read _).trans folded
      · rw [members, firstMembers, List.mem_cons, or_assoc, ← and_or_left]

/-- One entry that cannot be read is enough for all of them not to be. -/
theorem loadEntries_error {entries : List String} (database : Database)
    (steps : ∀ entry ∈ entries, ∀ database,
      (∃ next, loadEntry directory database entry disk = .ok next disk) ∨
        ∃ error, loadEntry directory database entry disk = .error error disk)
    {bad : String} (member : bad ∈ entries)
    (fails : ∀ database, ∃ error, loadEntry directory database bad disk = .error error disk) :
    ∃ error, entries.foldlM (loadEntry directory) database disk = .error error disk := by
  induction entries generalizing database with
  | nil => simp at member
  | cons entry rest inductionHypothesis =>
      rw [List.foldlM_cons]
      rcases steps entry List.mem_cons_self database with ⟨next, read⟩ | ⟨error, unread⟩
      · rcases List.mem_cons.mp member with rfl | later
        · obtain ⟨error, unread⟩ := fails database
          exact ⟨error, Work.bind_error unread _⟩
        · have others := fun other inside => steps other (List.mem_cons_of_mem entry inside)
          obtain ⟨error, failed⟩ := inductionHypothesis next others later
          exact ⟨error, (Work.bind_ok read _).trans failed⟩
      · exact ⟨error, Work.bind_error unread _⟩

theorem loadDatabase_unknown {store : Store} {name : String}
    (missing : disk.isDirectory (store.directory name) = false) :
    store.loadDatabase name disk = .error (.unknownDatabase name) disk := by
  apply (Work.bind_ok rfl _).trans
  simp only [missing]
  rfl

/-- A directory is read entry by entry. -/
theorem loadDatabase_apply {store : Store} {name : String}
    (leads : disk.Leads (store.directory name) place)
    (located : disk.locate (store.directory name) = .ok place) :
    store.loadDatabase name disk =
      ((disk.names place).foldlM (loadEntry (store.directory name)) (Database.empty name) :
        StoreM Database) disk := by
  have isDirectory : disk.isDirectory (store.directory name) := by
    simp [Disk.isDirectory, Disk.lookup?, located, leads.directory]
  have listed : DiskM.listDirectory (store.directory name) disk = .ok (disk.names place) disk := by
    simp [DiskM.listDirectory_apply, located, leads.directory]
  apply (Work.bind_ok rfl _).trans
  simp only [isDirectory, if_true]
  exact Work.bind_ok (StoreM.ofDisk_ok listed) _

theorem not_isUnreadable (readable : shelf.Readable) (entry : String) :
    ¬ IsUnreadable shelf entry := by
  rintro (⟨table, member, rfl, long⟩ | ⟨name, member, -⟩)
  · exact long (readable.short table member)
  · rw [readable.noStrays] at member
    simp at member

theorem exists_isUnreadable (unreadable : ¬ shelf.Readable)
    (holds : disk.Holds directory place shelf) :
    ∃ entry, disk.node? (place ++ [entry]) ≠ none ∧ IsUnreadable shelf entry := by
  cases strays : shelf.strays with
  | cons name others =>
      have member : name ∈ shelf.strays := by simp [strays]
      obtain ⟨-, content, stored⟩ := holds.stray name member
      refine ⟨name ++ tableEnding, ?_, .inr ⟨name, member, rfl⟩⟩
      rw [stored]
      exact Option.some_ne_none _
  | nil =>
      have long : ∃ table ∈ shelf.tables, ¬ table.HasShortKey := by
        by_contra none
        push Not at none
        exact unreadable ⟨strays, none⟩
      obtain ⟨table, member, long⟩ := long
      refine ⟨table.name ++ tableEnding, ?_, .inl ⟨table, member, rfl, long⟩⟩
      rw [holds.tableFile table member]
      exact Option.some_ne_none _

/-- The tables that a directory holds are read back, and the disk stays as it is. -/
theorem loadDatabase_ok {store : Store} {name : String} (named : IsName name)
    (leads : disk.Leads (store.directory name) place)
    (located : disk.locate (store.directory name) = .ok place)
    (holds : disk.Holds (store.directory name) place shelf) (once : (disk.names place).Nodup)
    (readable : shelf.Readable) :
    store.loadDatabase name disk = .ok ⟨name, shelf.tables⟩ disk := by
  have brings : ∀ entry ∈ disk.names place, Brings disk (store.directory name) shelf entry := by
    intro entry member
    exact loadEntry_readable leads holds (Disk.mem_names_iff.mp member)
      (not_isUnreadable readable entry)
  have fresh : ∀ table ∈ shelf.tables, table.name ++ tableEnding ∈ disk.names place →
      ∀ other ∈ (Database.empty name).tables, other.key ≠ table.key := by
    intro table _ _ other member
    simp [Database.empty] at member
  obtain ⟨loaded, order, folded, members⟩ :=
    loadEntries_ok holds (Database.empty name) once brings List.Pairwise.nil fresh
  have same : loaded = shelf.tables := by
    refine order.eq_of_mem_iff holds.sorted fun table => ?_
    rw [members]
    constructor
    · rintro (none | ⟨inside, -⟩)
      · simp [Database.empty] at none
      · exact inside
    · intro inside
      refine .inr ⟨inside, Disk.mem_names_iff.mpr ?_⟩
      rw [holds.tableFile table inside]
      exact Option.some_ne_none _
  rw [loadDatabase_apply leads located, folded, same, Database.empty, named.lower]

/-- A directory with a table that cannot be read is not read, and the disk stays as it is. -/
theorem loadDatabase_unreadable {store : Store} {name : String}
    (leads : disk.Leads (store.directory name) place)
    (located : disk.locate (store.directory name) = .ok place)
    (holds : disk.Holds (store.directory name) place shelf) (unreadable : ¬ shelf.Readable) :
    ∃ error, store.loadDatabase name disk = .error error disk := by
  have steps : ∀ entry ∈ disk.names place, ∀ database,
      (∃ next, loadEntry (store.directory name) database entry disk = .ok next disk) ∨
        ∃ error, loadEntry (store.directory name) database entry disk = .error error disk := by
    intro entry member database
    have present := Disk.mem_names_iff.mp member
    by_cases refused : IsUnreadable shelf entry
    · exact .inr (loadEntry_unreadable leads holds present refused database)
    · cases loadEntry_readable leads holds present refused with
      | @table table member named loads =>
          rw [loads]
          cases database.addTable table with
          | error error => exact .inr ⟨error, rfl⟩
          | ok next => exact .inl ⟨next, rfl⟩
      | nothing foreign skips => exact .inl ⟨database, skips database⟩
  obtain ⟨bad, stands, refused⟩ := exists_isUnreadable unreadable holds
  rw [loadDatabase_apply leads located]
  exact loadEntries_error _ steps (Disk.mem_names_iff.mpr stands)
    (loadEntry_unreadable leads holds stands refused)

end Store

end TextTables
