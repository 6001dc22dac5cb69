import TextTables.Proofs.Store.Stems

/-!
# Directories that can be read

Reading a database goes through its directory entry by entry and writes second files on the way.
What it comes to can be told from the disk before: it succeeds exactly if every table file can be
read and no two of them differ in letter case alone, and then the tables are the ones that the files
are read as. A directory that was read is read again as the same database.
-/

namespace TextTables

open Location Text

namespace Store

open Disk

variable {disk after : Disk} {directory : Path} {place : Location} {base next final : Database}
  {entry stem name : String} {table : Table} {store : Store}

/-- An entry brings in the table that its file is read as, or is no table file. -/
theorem loadEntry_eq_ok_iff (catalog : disk.Catalog directory place)
    (stands : disk.node? (place ++ [entry]) ≠ none) :
    loadEntry directory base entry disk = .ok next after ↔
      (∃ stem table, entry = stem ++ tableEnding ∧ disk.Lists directory place stem ∧
          disk.Reads directory place stem table ∧
          (∀ other ∈ base.tables, other.key ≠ table.key) ∧
          next = { base with tables := Database.place table base.tables } ∧
          after = disk.healed place stem table) ∨
        ((∀ stem, entry = stem ++ tableEnding → ¬ disk.Lists directory place stem) ∧
          next = base ∧ after = disk) := by
  have proper := catalog.isFileName stands
  have isFile := catalog.toLeads.isFile_iff proper
  have lists : ∀ stem, stem? entry = some stem ↔ entry = stem ++ tableEnding ∧ IsStem stem := by
    intro stem
    constructor
    · intro found
      obtain ⟨rfl, -⟩ := stem?_eq_some found
      exact ⟨rfl, found⟩
    · rintro ⟨rfl, isStem⟩
      exact isStem
  constructor
  · intro done
    rcases loadEntry_eq_ok done with ⟨rfl, rfl, noFile⟩ |
      ⟨stem, table, isStem, -, loaded, fresh, rfl⟩
    · refine .inr ⟨?_, rfl, rfl⟩
      rintro stem rfl listed
      have refused := noFile stem listed.isStem
      rw [Bool.eq_false_iff, Ne, isFile] at refused
      exact refused ⟨listed.fits, listed.file⟩
    · obtain ⟨rfl, proven⟩ := (lists stem).mp isStem
      obtain ⟨reads, rfl⟩ := (loadTable_eq_ok_iff catalog.toLeads proven proper).mp loaded
      exact .inl ⟨stem, table, rfl, reads.lists proven, reads, fresh, rfl, rfl⟩
  · rw [loadEntry_apply]
    rintro (⟨stem, table, rfl, listed, reads, fresh, rfl, rfl⟩ | ⟨foreign, rfl, rfl⟩)
    · have found : stem? (stem ++ tableEnding) = some stem := listed.isStem
      have loaded := (loadTable_eq_ok_iff catalog.toLeads listed.isStem proper).mpr ⟨reads, rfl⟩
      rw [if_pos (isFile.mpr ⟨listed.fits, listed.file⟩), found]
      apply (Work.bind_ok loaded _).trans
      rw [Database.addTable_ok fresh]
      rfl
    · split_ifs with file
      · cases found : stem? entry with
        | none => rfl
        | some stem =>
            obtain ⟨rfl, isStem⟩ := (lists stem).mp found
            obtain ⟨fits, stored⟩ := isFile.mp file
            exact absurd ⟨isStem, fits, stored⟩ (foreign stem rfl)
      · rfl

/-- The tables that the entries of a directory bring to those of a database. -/
structure Gathers (disk : Disk) (directory : Path) (place : Location) (entries : List String)
    (base final : Database) : Prop where
  name : final.name = base.name
  sorted : Database.Sorted final.tables
  tables : ∀ table, table ∈ final.tables ↔ table ∈ base.tables ∨ ∃ stem,
    stem ++ tableEnding ∈ entries ∧ disk.Lists directory place stem ∧
      disk.Reads directory place stem table
  readable : ∀ stem, stem ++ tableEnding ∈ entries → disk.Lists directory place stem →
    ∃ table, disk.Reads directory place stem table
  apart : ∀ first second, first ++ tableEnding ∈ entries → second ++ tableEnding ∈ entries →
    disk.Lists directory place first → disk.Lists directory place second →
      lowercase first = lowercase second → first = second
  fresh : ∀ stem, stem ++ tableEnding ∈ entries → disk.Lists directory place stem →
    ∀ table ∈ base.tables, table.key ≠ lowercase stem

theorem gathers_nil (sorted : Database.Sorted base.tables) :
    Gathers disk directory place [] base final ↔ final = base := by
  constructor
  · intro gathers
    have same := gathers.sorted.eq_of_mem_iff sorted fun table => by simp [gathers.tables]
    obtain ⟨name, tables⟩ := final
    obtain rfl := gathers.name
    obtain rfl := same
    rfl
  · rintro rfl
    exact ⟨rfl, sorted, by simp, by simp, by simp, by simp⟩

theorem gathers_cons_foreign (foreign : ∀ stem, entry = stem ++ tableEnding →
      ¬ disk.Lists directory place stem) {rest : List String} :
    Gathers disk directory place (entry :: rest) base final ↔
      Gathers disk directory place rest base final := by
  have later : ∀ stem, disk.Lists directory place stem →
      (stem ++ tableEnding ∈ entry :: rest ↔ stem ++ tableEnding ∈ rest) := by
    intro stem listed
    rw [List.mem_cons, or_iff_right]
    exact fun same => foreign stem same.symm listed
  have tables : ∀ table, (∃ stem, stem ++ tableEnding ∈ entry :: rest ∧
      disk.Lists directory place stem ∧ disk.Reads directory place stem table) ↔
        ∃ stem, stem ++ tableEnding ∈ rest ∧ disk.Lists directory place stem ∧
          disk.Reads directory place stem table :=
    fun table => exists_congr fun stem => and_congr_left fun ⟨listed, _⟩ => later stem listed
  constructor
  · rintro ⟨name, sorted, members, readable, apart, fresh⟩
    refine ⟨name, sorted, fun table => by rw [members, tables], fun stem member =>
      readable stem (.tail _ member), fun first second here there =>
        apart first second (.tail _ here) (.tail _ there), fun stem member =>
          fresh stem (.tail _ member)⟩
  · rintro ⟨name, sorted, members, readable, apart, fresh⟩
    refine ⟨name, sorted, fun table => by rw [members, tables], ?_, ?_, ?_⟩
    · exact fun stem member listed => readable stem ((later stem listed).mp member) listed
    · intro first second here there listed alsoListed
      exact apart first second ((later first listed).mp here)
        ((later second alsoListed).mp there) listed alsoListed
    · exact fun stem member listed => fresh stem ((later stem listed).mp member) listed

/-- The table of the first entry counts among those that are there before. The others, which differ
from it in more than letter case, are read alike after it. -/
theorem tables_cons_table (catalog : disk.Catalog directory place)
    (listed : disk.Lists directory place stem) (reads : disk.Reads directory place stem table)
    {rest : List String} (apart : ∀ other, other ++ tableEnding ∈ rest →
      disk.Lists directory place other → lowercase other ≠ lowercase stem) (read : Table) :
    (read ∈ Database.place table base.tables ∨ ∃ other, other ++ tableEnding ∈ rest ∧
        (disk.healed place stem table).Lists directory place other ∧
        (disk.healed place stem table).Reads directory place other read) ↔
      read ∈ base.tables ∨ ∃ other, other ++ tableEnding ∈ (stem ++ tableEnding) :: rest ∧
        disk.Lists directory place other ∧ disk.Reads directory place other read := by
  rw [Database.mem_place]
  constructor
  · rintro ((rfl | old) | ⟨other, member, there, found⟩)
    · exact .inr ⟨stem, List.mem_cons_self, listed, reads⟩
    · exact .inl old
    · have before := lists_healed_iff.mp there
      exact .inr ⟨other, .tail _ member, before,
        (reads_healed_iff before.isStem (apart other member before)).mp found⟩
  · rintro (old | ⟨other, member, there, found⟩)
    · exact .inl (.inr old)
    · rcases List.mem_cons.mp member with same | later
      · obtain rfl := append_ending_inj same
        exact .inl (.inl (found.unique catalog listed.isStem reads))
      · exact .inr ⟨other, later, lists_healed_iff.mpr there,
          (reads_healed_iff there.isStem (apart other later there)).mpr found⟩

/-- Once the table of the first entry was brought in, the other entries bring theirs. -/
theorem Gathers.tail {rest : List String}
    (gathers : Gathers disk directory place ((stem ++ tableEnding) :: rest) base final)
    (catalog : disk.Catalog directory place) (listed : disk.Lists directory place stem)
    (reads : disk.Reads directory place stem table) (once : stem ++ tableEnding ∉ rest) :
    Gathers (disk.healed place stem table) directory place rest
      { base with tables := Database.place table base.tables } final := by
  have apart : ∀ other, other ++ tableEnding ∈ rest → disk.Lists directory place other →
      lowercase other ≠ lowercase stem := by
    intro other member there same
    obtain rfl :=
      gathers.apart other stem (.tail _ member) List.mem_cons_self there listed same
    exact once member
  refine ⟨gathers.name, gathers.sorted, fun read => ?_, ?_, ?_, ?_⟩
  · rw [gathers.tables, tables_cons_table catalog listed reads apart]
  · intro other member there
    have before := lists_healed_iff.mp there
    obtain ⟨read, found⟩ := gathers.readable other (.tail _ member) before
    exact ⟨read, (reads_healed_iff before.isStem (apart other member before)).mpr found⟩
  · intro first second here there firstListed secondListed
    exact gathers.apart first second (.tail _ here) (.tail _ there)
      (lists_healed_iff.mp firstListed) (lists_healed_iff.mp secondListed)
  · intro other member there read present
    have before := lists_healed_iff.mp there
    rcases Database.mem_place.mp present with rfl | old
    · rw [reads.key_eq]
      exact (apart other member before).symm
    · exact gathers.fresh other (.tail _ member) before read old

theorem Gathers.cons {rest : List String}
    (gathers : Gathers (disk.healed place stem table) directory place rest
      { base with tables := Database.place table base.tables } final)
    (catalog : disk.Catalog directory place) (listed : disk.Lists directory place stem)
    (reads : disk.Reads directory place stem table)
    (fresh : ∀ other ∈ base.tables, other.key ≠ table.key) :
    Gathers disk directory place ((stem ++ tableEnding) :: rest) base final := by
  have apart : ∀ other, other ++ tableEnding ∈ rest → disk.Lists directory place other →
      lowercase other ≠ lowercase stem := by
    intro other member there same
    have here : table ∈ Database.place table base.tables := Database.mem_place.mpr (.inl rfl)
    have other := gathers.fresh other member (lists_healed_iff.mpr there) table here
    exact other (reads.key_eq.trans same.symm)
  refine ⟨gathers.name, gathers.sorted, fun read => ?_, ?_, ?_, ?_⟩
  · rw [gathers.tables, tables_cons_table catalog listed reads apart]
  · intro other member there
    rcases List.mem_cons.mp member with same | later
    · obtain rfl := append_ending_inj same
      exact ⟨table, reads⟩
    · obtain ⟨read, found⟩ := gathers.readable other later (lists_healed_iff.mpr there)
      exact ⟨read, (reads_healed_iff there.isStem (apart other later there)).mp found⟩
  · intro first second here there firstListed secondListed same
    rcases List.mem_cons.mp here with spelled | later
    · rcases List.mem_cons.mp there with alsoSpelled | alsoLater
      · exact append_ending_inj (spelled.trans alsoSpelled.symm)
      · obtain rfl := append_ending_inj spelled
        exact absurd same.symm (apart second alsoLater secondListed)
    · rcases List.mem_cons.mp there with alsoSpelled | alsoLater
      · obtain rfl := append_ending_inj alsoSpelled
        exact absurd same (apart first later firstListed)
      · exact gathers.apart first second later alsoLater (lists_healed_iff.mpr firstListed)
          (lists_healed_iff.mpr secondListed) same
  · intro other member there read present
    rcases List.mem_cons.mp member with same | later
    · obtain rfl := append_ending_inj same
      rw [← reads.key_eq]
      exact fresh read present
    · exact gathers.fresh other later (lists_healed_iff.mpr there) read
        (Database.mem_place.mpr (.inr present))

/-- The table of the first entry can as well be there before the others are read. -/
theorem gathers_cons_table (catalog : disk.Catalog directory place)
    (listed : disk.Lists directory place stem) (reads : disk.Reads directory place stem table)
    (fresh : ∀ other ∈ base.tables, other.key ≠ table.key) {rest : List String}
    (once : stem ++ tableEnding ∉ rest) :
    Gathers disk directory place ((stem ++ tableEnding) :: rest) base final ↔
      Gathers (disk.healed place stem table) directory place rest
        { base with tables := Database.place table base.tables } final :=
  ⟨fun gathers => gathers.tail catalog listed reads once,
    fun gathers => gathers.cons catalog listed reads fresh⟩

/-- Entries are read one after the other exactly if the disk before lets them all be read. -/
theorem loadEntries_eq_ok_iff {entries : List String} (catalog : disk.Catalog directory place)
    (stand : ∀ entry ∈ entries, disk.node? (place ++ [entry]) ≠ none) (once : entries.Nodup)
    (sorted : Database.Sorted base.tables) :
    (∃ after, (entries.foldlM (loadEntry directory) base : StoreM Database) disk =
        .ok final after) ↔
      Gathers disk directory place entries base final := by
  induction entries generalizing disk base with
  | nil =>
      rw [gathers_nil sorted]
      constructor
      · rintro ⟨after, done⟩
        cases done
        rfl
      · rintro rfl
        exact ⟨disk, rfl⟩
  | cons entry rest inductionHypothesis =>
      obtain ⟨here, others⟩ := List.forall_mem_cons.mp stand
      obtain ⟨notAgain, restOnce⟩ := List.nodup_cons.mp once
      have steps : ∀ {next middle}, loadEntry directory base entry disk = .ok next middle →
          ((∃ after, ((entry :: rest).foldlM (loadEntry directory) base : StoreM Database) disk =
              .ok final after) ↔
            ∃ after, (rest.foldlM (loadEntry directory) next : StoreM Database) middle =
              .ok final after) := by
        intro next middle step
        rw [List.foldlM_cons, Work.bind_ok step]
      by_cases table : ∃ stem, entry = stem ++ tableEnding ∧ disk.Lists directory place stem
      · obtain ⟨stem, rfl, listed⟩ := table
        by_cases read : ∃ table, disk.Reads directory place stem table ∧
            ∀ other ∈ base.tables, other.key ≠ table.key
        · obtain ⟨table, reads, fresh⟩ := read
          have step := (loadEntry_eq_ok_iff catalog here).mpr
            (.inl ⟨stem, table, rfl, listed, reads, fresh, rfl, rfl⟩)
          rw [steps step, gathers_cons_table catalog listed reads fresh notAgain]
          exact inductionHypothesis (catalog.healed listed.isStem reads)
            (fun other member => stands_healed (others other member)) restOnce
            (sorted.place fresh)
        · constructor
          · rintro ⟨after, done⟩
            rw [List.foldlM_cons] at done
            obtain ⟨next, middle, step, -⟩ := Work.bind_eq_ok_iff.mp done
            rcases (loadEntry_eq_ok_iff catalog here).mp step with
              ⟨other, table, same, -, reads, fresh, -⟩ | ⟨foreign, -⟩
            · obtain rfl := append_ending_inj same
              exact absurd ⟨table, reads, fresh⟩ read
            · exact absurd listed (foreign stem rfl)
          · intro gathers
            obtain ⟨table, reads⟩ := gathers.readable stem List.mem_cons_self listed
            refine absurd ⟨table, reads, fun other present => ?_⟩ read
            rw [reads.key_eq]
            exact gathers.fresh stem List.mem_cons_self listed other present
      · have foreign : ∀ stem, entry = stem ++ tableEnding →
            ¬ disk.Lists directory place stem :=
          fun stem spelled listed => table ⟨stem, spelled, listed⟩
        have step : loadEntry directory base entry disk = .ok base disk :=
          (loadEntry_eq_ok_iff catalog here).mpr (.inr ⟨foreign, rfl, rfl⟩)
        rw [steps step, gathers_cons_foreign foreign]
        exact inductionHypothesis catalog others restOnce sorted

end Store

/-- All table files of the directory can be read, no two of them differ in letter case alone, and
the tables of the database are what they are read as. -/
structure Disk.Carries (disk : Disk) (directory : Path) (place : Location) (database : Database) :
    Prop where
  sorted : Database.Sorted database.tables
  stored : ∀ table ∈ database.tables, ∃ stem, disk.Lists directory place stem ∧
    disk.Reads directory place stem table
  readable : ∀ stem, disk.Lists directory place stem → ∃ table ∈ database.tables,
    disk.Reads directory place stem table
  apart : ∀ first second, disk.Lists directory place first → disk.Lists directory place second →
    lowercase first = lowercase second → first = second

theorem Disk.Lists.mem_names {disk : Disk} {directory : Path} {place : Location} {stem : String}
    (lists : disk.Lists directory place stem) : stem ++ tableEnding ∈ disk.names place := by
  obtain ⟨content, stored⟩ := lists.file
  rw [Disk.mem_names_iff, stored]
  exact Option.some_ne_none _

namespace Store

open Disk

variable {disk after : Disk} {place : Location} {final : Database} {name : String} {store : Store}

/-- A database is read exactly if its directory carries it. -/
theorem loadDatabase_eq_ok_iff (catalog : disk.Catalog (store.directory name) place)
    (located : disk.locate (store.directory name) = .ok place) :
    (∃ after, store.loadDatabase name disk = .ok final after) ↔
      final.name = lowercase name ∧ disk.Carries (store.directory name) place final := by
  rw [loadDatabase_apply catalog.toLeads located]
  have empty : (Database.empty name).tables = [] := rfl
  have once := catalog.tidy place (List.prefix_refl place)
  have sorted : Database.Sorted (Database.empty name).tables := List.Pairwise.nil
  rw [loadEntries_eq_ok_iff catalog (fun entry => mem_names_iff.mp) once sorted]
  constructor
  · rintro ⟨called, sorted, tables, readable, apart, -⟩
    simp only [empty, List.not_mem_nil, false_or] at tables
    refine ⟨called, sorted, fun table member => ?_, fun stem listed => ?_, ?_⟩
    · obtain ⟨stem, -, listed, reads⟩ := (tables table).mp member
      exact ⟨stem, listed, reads⟩
    · obtain ⟨table, reads⟩ := readable stem listed.mem_names listed
      exact ⟨table, (tables table).mpr ⟨stem, listed.mem_names, listed, reads⟩, reads⟩
    · exact fun first second here there => apart first second here.mem_names there.mem_names here
        there
  · rintro ⟨called, sorted, stored, readable, apart⟩
    refine ⟨called, sorted, fun table => ?_, fun stem _ listed => ?_, ?_, by simp [empty]⟩
    · simp only [empty, List.not_mem_nil, false_or]
      constructor
      · intro member
        obtain ⟨stem, listed, reads⟩ := stored table member
        exact ⟨stem, listed.mem_names, listed, reads⟩
      · rintro ⟨stem, -, listed, reads⟩
        obtain ⟨other, member, alsoReads⟩ := readable stem listed
        exact reads.unique catalog listed.isStem alsoReads ▸ member
    · obtain ⟨table, -, reads⟩ := readable stem listed
      exact ⟨table, reads⟩
    · exact fun first second _ _ => apart first second

/-- Reading has left all entries that a database is read from. -/
structure Settled (directory : Path) (place : Location) (final : Database) (before now : Disk) :
    Prop where
  keeps : KeepsDirectories before now
  catalog : now.Catalog directory place
  stands : ∀ entry, before.node? (place ++ [entry]) ≠ none → now.node? (place ++ [entry]) ≠ none
  lists : ∀ stem, now.Lists directory place stem ↔ before.Lists directory place stem
  reads : ∀ table ∈ final.tables, ∀ stem, before.Lists directory place stem →
    before.Reads directory place stem table → now.Reads directory place stem table

theorem Settled.loadEntry {directory : Path} {before now : Disk} {sofar next : Database}
    {entry : String} (settled : Settled directory place final before now)
    (carries : before.Carries directory place final)
    (short : ∀ table ∈ final.tables, table.HasShortKey) (member : entry ∈ before.names place)
    (step : loadEntry directory sofar entry now = .ok next after) :
    Settled directory place final before after := by
  have stands := settled.stands entry (mem_names_iff.mp member)
  rcases (loadEntry_eq_ok_iff settled.catalog stands).mp step with
    ⟨stem, table, -, listed, reads, -, -, rfl⟩ | ⟨-, -, rfl⟩
  · refine ⟨settled.keeps.trans reads.keepsDirectories, settled.catalog.healed listed.isStem reads,
      fun other there => stands_healed (settled.stands other there),
      fun other => lists_healed_iff.trans (settled.lists other),
      fun read inside other there found => ?_⟩
    have still := settled.reads read inside other there found
    by_cases same : other = stem
    · subst same
      obtain rfl := still.unique settled.catalog listed.isStem reads
      exact reads.healed listed.isStem (short read inside)
    · refine (reads_healed_iff there.isStem fun alike => same ?_).mpr still
      exact carries.apart other stem there ((settled.lists stem).mp listed) alike
  · exact settled

/-- What was read is read again, as long as all last primary keys are short enough. -/
theorem carries_of_loadDatabase (catalog : disk.Catalog (store.directory name) place)
    (located : disk.locate (store.directory name) = .ok place)
    (done : store.loadDatabase name disk = .ok final after)
    (short : ∀ table ∈ final.tables, table.HasShortKey) :
    Settled (store.directory name) place final disk after ∧
      after.Carries (store.directory name) place final := by
  obtain ⟨-, carries⟩ := (loadDatabase_eq_ok_iff catalog located).mp ⟨after, done⟩
  rw [loadDatabase_apply catalog.toLeads located] at done
  have settled : Settled (store.directory name) place final disk after :=
    Work.foldlM_preserves (fun _ middle => Settled (store.directory name) place final disk middle)
      (fun entry member _ _ _ _ sofar step => sofar.loadEntry carries short member step)
      ⟨.refl disk, catalog, fun _ stands => stands, fun _ => Iff.rfl, fun _ _ _ _ reads => reads⟩
      done
  refine ⟨settled, carries.sorted, fun table member => ?_, fun stem listed => ?_, ?_⟩
  · obtain ⟨stem, listed, read⟩ := carries.stored table member
    exact ⟨stem, (settled.lists stem).mpr listed, settled.reads table member stem listed read⟩
  · have before := (settled.lists stem).mp listed
    obtain ⟨table, member, read⟩ := carries.readable stem before
    exact ⟨table, member, settled.reads table member stem before read⟩
  · exact fun first second here there =>
      carries.apart first second ((settled.lists first).mp here) ((settled.lists second).mp there)

end Store

end TextTables
