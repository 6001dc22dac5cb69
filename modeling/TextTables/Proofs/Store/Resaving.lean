import TextTables.Proofs.Store.Premises
import TextTables.Proofs.Store.Stems
import TextTables.Proofs.TableFile.Resaving

/-!
# Tables that are loaded and saved

A table that could be loaded can be saved under the same name, and then loaded again. Its second
file is in order by then in any case. So the table comes back as it was unless the text of the table
file has changed its meaning, for which a line has to end in a carriage return that is read with it.
-/

namespace TextTables

open Text

namespace Table

theorem parseKey_lt {text : String} {key : Nat} (numbered : parseKey text = .ok key) :
    key < UInt64.size := by
  have bounded : ∀ digits : List Char,
      (if Numeral.areDigits digits && Numeral.ofDigits digits < UInt64.size then
          (.ok (Numeral.ofDigits digits) : Except Corruption Nat)
        else .error .badCounter) = .ok key → key < UInt64.size := by
    intro digits read
    split at read
    · rename_i accepted
      cases read
      exact of_decide_eq_true (Bool.and_eq_true_iff.mp accepted).2
    · cases read
  unfold parseKey at numbered
  split at numbered
  · exact bounded _ numbered
  · cases numbered

end Table

namespace Store

open Disk

variable {store : Store} {database name text counter : String} {directory : Path}
  {disk after : Disk} {place : Location} {table : Table} {key : Nat}

theorem isFileName_counter_of_table (proper : IsFileName (name ++ tableEnding)) :
    IsFileName (name ++ counterEnding) := by
  have inside : name.toList ⊆ (name ++ tableEnding).toList := by
    rw [String.toList_append]
    exact List.subset_append_left _ _
  exact isFileName_counter (fun member => proper.slashFree (inside member))
    fun member => proper.zeroFree (inside member)

/-- Both files of a table that was loaded are in its directory, and the second one holds the last
primary key. -/
structure Shelved (disk : Disk) (directory : Path) (place : Location) (name : String)
    (table : Table) : Prop where
  leads : disk.Leads directory place
  rows : ∃ text parsed, disk.HoldsText directory place (name ++ tableEnding) text ∧
    Table.parse name text = .ok parsed ∧ table = { parsed with lastKey := table.lastKey }
  counter : disk.Admits directory place (name ++ counterEnding)
  short : table.lastKey < UInt64.size

/-- Wherever the directory is, a table that was loaded stands in it with both files. -/
theorem shelved_of_loadTable (proper : IsFileName (name ++ tableEnding))
    (lower : lowercase name = name) (loads : loadTable directory name disk = .ok table after)
    (few : table.rows.length < UInt64.size) :
    Shelved after directory (disk.endOf directory) name table := by
  have properCounter := isFileName_counter_of_table proper
  obtain ⟨text, parsed, read, shaped, counting⟩ := loadTable_eq_ok loads
  obtain ⟨spot, -, located, -⟩ := Disk.isFile_iff.mp (DiskM.isFile_of_readText read)
  obtain ⟨leads, -, -⟩ := leads_of_locate_join proper located
  obtain ⟨rows, -⟩ := (DiskM.readText_eq_ok_iff leads proper).mp read
  obtain ⟨key, counted, rfl, rfl⟩ | ⟨counted, rfl, wrote⟩ := counting
  · obtain ⟨⟨counter, holds, numbered⟩, -⟩ :=
      (readCounter_eq_some_iff leads properCounter).mp counted
    exact ⟨leads, ⟨text, parsed, rows, shaped, rfl⟩, holds.admits, Table.parseKey_lt numbered⟩
  · have named : parsed.name = name := (Table.parse_eq_ok shaped).2.1.trans lower
    rw [writeCounter, counterPath, named] at wrote
    obtain ⟨⟨fits, noDirectory⟩, rfl⟩ :=
      (DiskM.writeText_eq_ok_iff leads properCounter).mp (StoreM.ofDisk_eq_ok wrote)
    have keeps := KeepsDirectories.put (by simp) noDirectory
      (.file ({ parsed with lastKey := parsed.rows.length } : Table).renderKey.toUTF8)
    refine ⟨keeps.leads leads, ⟨text, parsed, ⟨rows.fits, ?_⟩, shaped, rfl⟩, ⟨fits, ?_⟩, few⟩
    · rw [node?_put _ (by simp), if_neg (by simpa using table_ne_own_counter name)]
      exact rows.stored
    · rw [node?_put _ (by simp), if_pos rfl]
      simp

/-- A file that is there with its second file is read as what its text says. -/
theorem loadTable_of_holdsText (leads : disk.Leads directory place)
    (proper : IsFileName (name ++ tableEnding))
    (rows : disk.HoldsText directory place (name ++ tableEnding) text)
    (counted : disk.HoldsText directory place (name ++ counterEnding) counter)
    (numbered : Table.parseKey counter = .ok key) :
    loadTable directory name disk =
      match Table.parse name text with
      | .ok parsed => .ok { parsed with lastKey := key } disk
      | .error cause => .error (.corruptFile (tablePath directory name).text cause) disk := by
  have read := (DiskM.readText_eq_ok_iff leads proper).mpr ⟨rows, rfl⟩
  have count := (readCounter_eq_some_iff leads (isFileName_counter_of_table proper)).mpr
    ⟨⟨counter, counted, numbered⟩, rfl⟩
  apply (Work.bind_ok (StoreM.ofDisk_ok read) _).trans
  cases Table.parse name text with
  | error cause => rfl
  | ok parsed => exact (Work.bind_ok rfl _).trans (Work.bind_ok count _)

namespace Shelved

/-- The table can be saved, and what is loaded then is what its own text says. -/
theorem exists_saved (shelved : Shelved disk (store.directory database) place name table)
    (proper : IsFileName (name ++ tableEnding)) (lower : lowercase name = name) :
    ∃ saved, store.saveTable database table disk = .ok () saved ∧
      loadTable (store.directory database) name saved =
        match Table.parse name table.render with
        | .ok parsed => .ok { parsed with lastKey := table.lastKey } saved
        | .error cause =>
            .error (.corruptFile (tablePath (store.directory database) name).text cause) saved := by
  obtain ⟨text, parsed, rows, shaped, same⟩ := shelved.rows
  obtain rfl : table.name = name := by
    rw [same]
    exact (Table.parse_eq_ok shaped).2.1.trans lower
  have noDirectory := rows.admits.noDirectory
  have saves := saveTable_of_fileNames shelved.leads proper (isFileName_counter_of_table proper)
    rows.fits shelved.counter.fits noDirectory shelved.counter.noDirectory
  have keeps := KeepsDirectories.putTable noDirectory shelved.counter.noDirectory
  have numbered := (Table.parseKey_renderKey table).trans (if_pos shelved.short)
  refine ⟨_, saves, loadTable_of_holdsText (keeps.leads shelved.leads) proper ⟨rows.fits, ?_⟩
    ⟨shelved.counter.fits, ?_⟩ numbered⟩
  · rw [node?_putTable, if_neg (by simpa using table_ne_own_counter table.name), if_pos rfl]
  · rw [node?_putTable, if_pos rfl]

end Shelved

/-- Saving a table that was loaded from whatever text, with or without its second file, succeeds,
and loading it again brings back its columns, its rows and its last primary key exactly if none of
its lines but the last one ends in a carriage return. Then all of the table comes back. -/
theorem loadTable_saveTable_iff (proper : IsFileName (name ++ tableEnding))
    (lower : lowercase name = name)
    (loads : loadTable (store.directory database) name disk = .ok table after)
    (few : table.rows.length < UInt64.size) :
    ∃ saved, store.saveTable database table after = .ok () saved ∧
      ((∃ again rest, loadTable (store.directory database) name saved = .ok again rest ∧
          again.columns = table.columns ∧ again.rows = table.rows ∧
          again.lastKey = table.lastKey) ↔ table.EndsPlain) ∧
      (table.EndsPlain → loadTable (store.directory database) name saved = .ok table saved) := by
  have shelved := shelved_of_loadTable proper lower loads few
  obtain ⟨saved, saves, reload⟩ := shelved.exists_saved proper lower
  obtain ⟨text, parsed, -, shaped, same⟩ := shelved.rows
  have named : parsed.name = name := (Table.parse_eq_ok shaped).2.1.trans lower
  have reparse : (∃ again, Table.parse name table.render = .ok again ∧
      again.columns = table.columns ∧ again.rows = table.rows) ↔ table.EndsPlain := by
    rw [same]
    exact Table.parse_render_iff_endsPlain shaped name
  refine ⟨saved, saves, ?_, fun plain => ?_⟩
  · rw [← reparse, reload]
    constructor
    · rintro ⟨again, rest, read, columns, rows, -⟩
      cases parsedAgain : Table.parse name table.render with
      | error cause =>
          rw [parsedAgain] at read
          cases read
      | ok first =>
          rw [parsedAgain] at read
          cases read
          exact ⟨first, rfl, columns, rows⟩
    · rintro ⟨again, parsedAgain, columns, rows⟩
      rw [parsedAgain]
      exact ⟨_, saved, rfl, columns, rows, rfl⟩
  · have parsedAgain : Table.parse name table.render =
        .ok { parsed with name := lowercase name, lastKey := 0 } := by
      rw [same] at plain ⊢
      exact Table.parse_render_of_endsPlain shaped plain name
    have whole : ({ parsed with name := lowercase name, lastKey := table.lastKey } : Table) =
        table := by
      rw [lower, ← named]
      exact same.symm
    rw [reload, parsedAgain]
    exact congrArg (EStateM.Result.ok · saved) whole

/-- A table file with line ends of both kinds, an empty line and no second file. -/
theorem loadTable_saveTable_iff_lenient :
    let store : Store := ⟨⟨["r"]⟩⟩
    let disk : Disk := ⟨[], [(["r"], .directory), (["r", "d"], .directory),
      (["r", "d", "t.tab"], .file "id\ta\r\n\n1\tx\r\n2\t\r\n".toUTF8)]⟩
    let table : Table := ⟨"t", ["id", "a"], [["1", "x"], ["2", ""]], 2⟩
    let after := disk.put ["r", "d", "t_config.tab"] (.file "pk=2".toUTF8)
    loadTable (store.directory "d") "t" disk = .ok table after ∧ table.EndsPlain ∧
      ∃ saved, store.saveTable "d" table after = .ok () saved ∧
        loadTable (store.directory "d") "t" saved = .ok table saved := by
  intro store disk table after
  have loads : loadTable (store.directory "d") "t" disk = .ok table after := by decide +kernel
  have plain : table.EndsPlain := by decide +kernel
  obtain ⟨saved, saves, -, same⟩ := loadTable_saveTable_iff (by decide +kernel) (by decide +kernel)
    loads (by decide +kernel)
  exact ⟨loads, plain, saved, saves, same plain⟩

/-- Of two carriage returns at the end of a line the second load takes the one that the first load
has left. -/
theorem not_loadTable_saveTable :
    let store : Store := ⟨⟨["r"]⟩⟩
    let disk : Disk := ⟨[], [(["r"], .directory), (["r", "d"], .directory),
      (["r", "d", "t.tab"], .file "id\ta\r\r\n1\tx".toUTF8)]⟩
    ∃ table after saved again, lowercase "t" = "t" ∧
      loadTable (store.directory "d") "t" disk = .ok table after ∧
      store.saveTable "d" table after = .ok () saved ∧
      loadTable (store.directory "d") "t" saved = .ok again saved ∧
      table.columns = ["id", "a\r"] ∧ again.columns = ["id", "a"] := by
  refine ⟨⟨"t", ["id", "a\r"], [["1", "x"]], 1⟩,
    ⟨[], [(["r"], .directory), (["r", "d"], .directory),
      (["r", "d", "t.tab"], .file "id\ta\r\r\n1\tx".toUTF8),
      (["r", "d", "t_config.tab"], .file "pk=1".toUTF8)]⟩,
    ⟨[], [(["r"], .directory), (["r", "d"], .directory),
      (["r", "d", "t.tab"], .file "id\ta\r\n1\tx".toUTF8),
      (["r", "d", "t_config.tab"], .file "pk=1".toUTF8)]⟩,
    ⟨"t", ["id", "a"], [["1", "x"]], 1⟩, ?_⟩
  decide +kernel

end Store

end TextTables
