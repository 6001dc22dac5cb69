import TextTables.Proofs.Store.Gathering
import TextTables.Proofs.TableFile.RoundTrip

/-!
# Tables are read back as they were saved

A table that the operations made can be saved into the directory of a database that can be read
without it. The database is then read with the table in it, exactly as it was, whatever its cells
hold but for tabs, line feeds and carriage returns. A line without a character is skipped in
reading, which only a table of one column has, and a name needs room for both endings.
-/

namespace TextTables

open Location Text

variable {disk : Disk} {directory : Path} {place : Location} {table : Table}

/-- With more than one column no line is empty, and with one column no cell may be. -/
theorem Table.Built.printable (built : table.Built) (titled : table.columns ≠ [])
    (cells : ∀ line ∈ table.columns :: table.rows, ∀ cell ∈ line, IsCell cell)
    (single : table.columns.length = 1 → ∀ line ∈ table.columns :: table.rows, line ≠ [""]) :
    table.Printable := by
  obtain ⟨unreserved, distinct, wide⟩ := built.regular
  refine ⟨titled, unreserved, distinct, wide, cells, fun line member empty => ?_⟩
  have width : line.length = table.columns.length := by
    rcases List.mem_cons.mp member with rfl | row
    · rfl
    · exact wide line row
  rcases Table.line_eq_empty_iff.mp empty with rfl | rfl
  · exact titled (List.length_eq_zero_iff.mp width.symm)
  · exact single width.symm _ member rfl

/-- Both files of the table are in the directory as it is saved. -/
structure Disk.HoldsTable (disk : Disk) (directory : Path) (place : Location) (table : Table) :
    Prop where
  named : IsName table.name
  rows : disk.HoldsText directory place (table.name ++ tableEnding) table.render
  counter : disk.HoldsText directory place (table.name ++ counterEnding) table.renderKey

namespace Disk.HoldsTable

/-- The files of another table are others. -/
theorem congr {other : Disk} {name : String} (holds : disk.HoldsTable directory place table)
    (named : IsName name) (apart : table.name ≠ name)
    (same : SameBut place [name ++ tableEnding, name ++ counterEnding] disk other) :
    other.HoldsTable directory place table := by
  have first : table.name ++ tableEnding ∉ [name ++ tableEnding, name ++ counterEnding] := by
    simp only [List.mem_cons, List.not_mem_nil, or_false, not_or]
    exact ⟨fun spelled => apart (append_ending_inj spelled), table_ne_counter holds.named _⟩
  have second : table.name ++ counterEnding ∉ [name ++ tableEnding, name ++ counterEnding] := by
    simp only [List.mem_cons, List.not_mem_nil, or_false, not_or]
    exact ⟨(table_ne_counter named _).symm, fun spelled => apart (append_ending_inj spelled)⟩
  exact ⟨holds.named, ⟨holds.rows.fits, (same _ first).trans holds.rows.stored⟩,
    ⟨holds.counter.fits, (same _ second).trans holds.counter.stored⟩⟩

/-- The saved files are read as the table, but for the rows that make an empty line. -/
theorem reads (holds : disk.HoldsTable directory place table) (separable : table.Separable)
    (short : table.HasShortKey) :
    disk.Reads directory place table.name
      { table with rows := table.rows.filter fun row => ResultSet.line row ≠ "" } := by
  have shaped := separable.parse_render table.name
  have numbered := (Table.parseKey_renderKey table).trans (if_pos short)
  have reads := Reads.kept holds.rows shaped holds.counter numbered
  rwa [holds.named.lower] at reads

end Disk.HoldsTable

theorem Disk.holdsTable_putTable (disk : Disk) (place : Location) (named : IsName table.name)
    (fits : directory.CanName (table.name ++ counterEnding)) :
    (disk.putTable place table).HoldsTable directory place table := by
  have different := table_ne_counter named table.name
  refine ⟨named, ⟨fits.table named, ?_⟩, fits, ?_⟩
  · rw [node?_putTable, if_neg (by simpa using different), if_pos rfl]
  · rw [node?_putTable, if_pos rfl]

/-- A directory that carries a database without the table carries it with the table, once the files
of the table are there. -/
theorem Disk.Carries.addTable {before after : Disk} {others : Database}
    (carries : before.Carries directory place others) (named : IsName table.name)
    (fresh : ∀ other ∈ others.tables, other.key ≠ table.key)
    (same : SameBut place [table.name ++ tableEnding, table.name ++ counterEnding] before after)
    (reads : after.Reads directory place table.name table) :
    after.Carries directory place
      { others with tables := Database.place table others.tables } := by
  have key : table.key = table.name := named.lower
  have listed := reads.lists named.isStem
  -- What the directory lists is the table, or was listed before.
  have apart : ∀ stem, before.Lists directory place stem → lowercase stem ≠ table.name := by
    intro stem there
    obtain ⟨other, member, read⟩ := carries.readable stem there
    rw [← read.key_eq, ← key]
    exact fresh other member
  have lists : ∀ stem, after.Lists directory place stem →
      stem = table.name ∨ before.Lists directory place stem := by
    intro stem there
    exact or_iff_not_imp_left.mpr fun other =>
      there.congr same.symm (there.isStem.not_mem_files other)
  have kept : ∀ stem read, before.Lists directory place stem →
      before.Reads directory place stem read → after.Reads directory place stem read :=
    fun stem read there found => found.sameButTable there.isStem named (apart stem there) same
  refine ⟨carries.sorted.place fresh, fun read member => ?_, fun stem there => ?_, ?_⟩
  · rcases Database.mem_place.mp member with rfl | old
    · exact ⟨read.name, listed, reads⟩
    · obtain ⟨stem, there, found⟩ := carries.stored read old
      have still := kept stem read there found
      exact ⟨stem, still.lists there.isStem, still⟩
  · rcases lists stem there with rfl | old
    · exact ⟨table, Database.mem_place.mpr (.inl rfl), reads⟩
    · obtain ⟨read, member, found⟩ := carries.readable stem old
      exact ⟨read, Database.mem_place.mpr (.inr member), kept stem read old found⟩
  · intro first second here there alike
    rcases lists first here with rfl | old
    · rcases lists second there with rfl | alsoOld
      · rfl
      · exact absurd (alike.symm.trans named.lower) (apart second alsoOld)
    · rcases lists second there with rfl | alsoOld
      · exact absurd (alike.trans named.lower) (apart first old)
      · exact carries.apart first second old alsoOld alike

namespace Store

open Disk

variable {store : Store} {database : String} {rest : Disk} {others : Database}

/-- A table that is saved is read back as it was, beside the tables that can be read without it. -/
theorem loadDatabase_saveTable (tree : disk.IsTree) (tidy : disk.Tidy [])
    (located : disk.locate (store.directory database) = .ok place)
    (stands : disk.node? place = some .directory)
    (noDirectory : ∀ file ∈ [table.name ++ tableEnding, table.name ++ counterEnding],
      disk.node? (place ++ [file]) ≠ some .directory)
    (loads : store.loadDatabase database (disk.eraseTable place table) = .ok others rest)
    (fresh : ¬ others.hasTable table.name)
    (built : table.Built) (named : IsName table.name)
    (shortName : table.name.utf8ByteSize ≤ 244)
    (shortPath : (counterPath (store.directory database) table.name).size ≤ maxPathSize)
    (titled : table.columns ≠ [])
    (cells : ∀ line ∈ table.columns :: table.rows, ∀ cell ∈ line, IsCell cell)
    (single : table.columns.length = 1 → ∀ line ∈ table.columns :: table.rows, line ≠ [""])
    (shortKey : table.lastKey < UInt64.size) :
    ∃ saved loaded after, store.saveTable database table disk = .ok () saved ∧
      others.addTable table = .ok loaded ∧ store.loadDatabase database saved = .ok loaded after ∧
      loaded.find? table.name = some table := by
  have catalog := Catalog.of_locate tree tidy located stands
  have fits : (store.directory database).CanName (table.name ++ counterEnding) := by
    refine ⟨?_, shortPath⟩
    rw [String.utf8ByteSize_append]
    exact Nat.add_le_add_right shortName counterEnding.utf8ByteSize
  have saves := saveTable_ok catalog.toLeads named fits (noDirectory _ List.mem_cons_self)
    (noDirectory _ (.tail _ List.mem_cons_self))
  have new : ∀ other ∈ others.tables, other.key ≠ table.key := by
    rw [Database.not_hasTable_iff, named.lower] at fresh
    rwa [Table.key, named.lower]
  have printable := built.printable titled cells single
  have reads : (disk.putTable place table).Reads (store.directory database) place table.name
      table := by
    have read := (disk.holdsTable_putTable place named fits).reads printable.separable shortKey
    rwa [printable.filter_rows] at read
  -- The directory is compared with itself without the files of the table.
  obtain ⟨lessKeeps, less⟩ := catalog.eraseTable noDirectory
  obtain ⟨moreKeeps, more⟩ := catalog.putTable named noDirectory
  obtain ⟨called, carries⟩ :=
    (loadDatabase_eq_ok_iff less (lessKeeps.locate located)).mp ⟨rest, loads⟩
  have same := (sameBut_eraseTable disk place table).symm.trans
    (sameBut_putTable disk place table)
  have carriesMore := carries.addTable named new same reads
  obtain ⟨after, loaded⟩ : ∃ after, store.loadDatabase database (disk.putTable place table) =
      .ok { others with tables := Database.place table others.tables } after :=
    (loadDatabase_eq_ok_iff more (moreKeeps.locate located)).mpr ⟨called, carriesMore⟩
  refine ⟨_, _, after, saves, Database.addTable_ok new, loaded, ?_⟩
  exact Database.find?_of_mem (carries.sorted.place new) (Database.mem_place.mpr (.inl rfl)) rfl

/-- A database directory with a table in a file that is named in capital letters. -/
def crowdedDisk : Disk :=
  ⟨[], [(["d"], .directory), (["d", "Other.tab"], .file "id\ta\n1\t".toUTF8)]⟩

/-- A table with empty cells, and the last of all primary keys given out. -/
def sparseTable : Table :=
  ⟨"t", ["id", "", "b"], [["1", "", ""], ["", "", ""]], UInt64.size - 1⟩

theorem built_sparseTable : sparseTable.Built := by
  have made : Table.withColumns "T" ["", "b"] = .ok ⟨"t", ["id", "", "b"], [], 0⟩ := by
    decide +kernel
  have inserted : (⟨"t", ["id", "", "b"], [], 0⟩ : Table).insert ["", ""] =
      .ok ⟨"t", ["id", "", "b"], [["1", "", ""]], 1⟩ := by decide +kernel
  have added : (⟨"t", ["id", "", "b"], [["1", "", ""]], 1⟩ : Table).addRow ["", "", ""] =
      .ok ⟨"t", ["id", "", "b"], [["1", "", ""], ["", "", ""]], 1⟩ := by decide +kernel
  exact .setLastKey (.addRow (.insert (.withColumns made) inserted) added) _

theorem loadDatabase_saveTable_sparse :
    ∃ saved loaded after, saveTable ⟨⟨["."]⟩⟩ "d" sparseTable crowdedDisk = .ok () saved ∧
      Database.addTable ⟨"d", [⟨"other", ["id", "a"], [["1", ""]], 1⟩]⟩ sparseTable = .ok loaded ∧
      loadDatabase ⟨⟨["."]⟩⟩ "d" saved = .ok loaded after ∧
      loaded.find? "t" = some sparseTable := by
  have tree : crowdedDisk.IsTree := isTree_of_entries (by decide +kernel)
  have tidy : crowdedDisk.Tidy [] := tidy_of_entries (by decide +kernel)
  have loads : loadDatabase ⟨⟨["."]⟩⟩ "d" (crowdedDisk.eraseTable ["d"] sparseTable) =
      .ok ⟨"d", [⟨"other", ["id", "a"], [["1", ""]], 1⟩]⟩
        (crowdedDisk.put ["d", "other_config.tab"] (.file "pk=1".toUTF8)) := by
    decide +kernel
  have cells : ∀ line ∈ sparseTable.columns :: sparseTable.rows, ∀ cell ∈ line, IsCell cell := by
    have plain : ∀ line ∈ sparseTable.columns :: sparseTable.rows, ∀ cell ∈ line,
        ∀ c ∈ cell.toList, c.isAlphanum := by simp [sparseTable]
    exact fun line member cell inside => isCell_of_isAlphanum (plain line member cell inside)
  exact loadDatabase_saveTable tree tidy (by decide +kernel) (by decide +kernel)
    (by decide +kernel) loads (by decide +kernel) built_sparseTable
    ⟨by decide +kernel, by decide +kernel⟩ (by decide +kernel) (by decide +kernel)
    (by decide +kernel) cells (by decide +kernel) (by decide +kernel)

/-- In a directory that is deep enough only the first file of a table can be written. -/
theorem not_loadDatabase_saveTable :
    let store : Store := ⟨⟨List.replicate 2044 "."⟩⟩
    let disk : Disk := ⟨[], [(["d"], .directory)]⟩
    let table : Table := ⟨"t", ["id"], [], 0⟩
    (disk.IsTree ∧ disk.Tidy [] ∧ disk.locate (store.directory "d") = .ok ["d"] ∧
      disk.node? ["d"] = some .directory ∧
      (∀ file ∈ ["t.tab", "t_config.tab"], disk.node? ["d", file] ≠ some .directory) ∧
      store.loadDatabase "d" (disk.eraseTable ["d"] table) = .ok ⟨"d", []⟩ disk ∧
      table.Built ∧ IsName "t") ∧
    ∃ torn, store.saveTable "d" table disk = .error (.disk .nameTooLong) torn ∧
      ∃ error, store.loadDatabase "d" torn = .error error torn := by
  have made : Table.withColumns "t" [] = .ok ⟨"t", ["id"], [], 0⟩ := by decide +kernel
  refine ⟨⟨isTree_of_entries (by decide +kernel), tidy_of_entries (by decide +kernel),
    by decide +kernel, by decide +kernel, by decide +kernel, by decide +kernel,
    .withColumns made, ⟨by decide +kernel, by decide +kernel⟩⟩, ?_⟩
  exact ⟨⟨[], [(["d"], .directory), (["d", "t.tab"], .file "id".toUTF8)]⟩, by decide +kernel,
    .disk .nameTooLong, by decide +kernel⟩

end Store

end TextTables
