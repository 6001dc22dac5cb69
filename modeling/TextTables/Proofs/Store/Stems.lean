import TextTables.Proofs.Store.Footprint
import TextTables.Proofs.Text.Lines

/-!
# Table files and what they are read as

A table file is named after a stem in any letter case, and its table takes the stem in lower case
for its name. What is read depends on three entries of the directory: the file, the second file of
the stem, and the second file of the name, which is written if that of the stem is missing. The
entries of stems that differ in more than letter case are none of them shared.
-/

namespace TextTables

open Location Text

/-- A file with the table ending is the file of a table, and not a second file. -/
def IsStem (stem : String) : Prop :=
  Store.stem? (stem ++ tableEnding) = some stem

theorem IsName.isStem {name : String} (named : IsName name) : IsStem name :=
  stem?_table named

theorem IsStem.ne_counter {stem : String} (isStem : IsStem stem) (name : String) :
    stem ++ tableEnding ≠ name ++ counterEnding := by
  intro same
  unfold IsStem at isStem
  rw [same, stem?_counter] at isStem
  cases isStem

/-- The table file of a stem is one of the files of a table only if the table is named so. -/
theorem IsStem.not_mem_files {stem name : String} (isStem : IsStem stem) (different : stem ≠ name) :
    stem ++ tableEnding ∉ [name ++ tableEnding, name ++ counterEnding] := by
  simp only [List.mem_cons, List.not_mem_nil, or_false, not_or]
  exact ⟨fun spelled => different (append_ending_inj spelled), isStem.ne_counter name⟩

namespace Disk

/-- The path leads to a directory of a tree of files, in which nothing is listed twice. -/
structure Catalog (disk : Disk) (directory : Path) (place : Location) : Prop
    extends disk.Leads directory place where
  tree : disk.IsTree
  tidy : disk.Tidy place

/-- The entry is a file with the text that can be named. -/
structure HoldsText (disk : Disk) (directory : Path) (place : Location) (file text : String) :
    Prop where
  fits : directory.CanName file
  stored : disk.node? (place ++ [file]) = some (.file text.toUTF8)

/-- The entry can be written as a file. -/
structure Admits (disk : Disk) (directory : Path) (place : Location) (file : String) : Prop where
  fits : directory.CanName file
  noDirectory : disk.node? (place ++ [file]) ≠ some .directory

/-- The directory has a table file with the stem. -/
structure Lists (disk : Disk) (directory : Path) (place : Location) (stem : String) : Prop where
  isStem : IsStem stem
  fits : directory.CanName (stem ++ tableEnding)
  file : ∃ content, disk.node? (place ++ [stem ++ tableEnding]) = some (.file content)

/-- What the table file with the stem is read as. Where its second file is missing, the rows are
counted, and the second file of the name can be written. -/
inductive Reads (disk : Disk) (directory : Path) (place : Location) (stem : String) : Table → Prop
  | kept {text counter : String} {parsed : Table} {key : Nat}
      (rows : disk.HoldsText directory place (stem ++ tableEnding) text)
      (shaped : Table.parse stem text = .ok parsed)
      (counted : disk.HoldsText directory place (stem ++ counterEnding) counter)
      (numbered : Table.parseKey counter = .ok key) :
      Reads disk directory place stem { parsed with lastKey := key }
  | lost {text : String} {parsed : Table}
      (rows : disk.HoldsText directory place (stem ++ tableEnding) text)
      (shaped : Table.parse stem text = .ok parsed)
      (fits : directory.CanName (stem ++ counterEnding))
      (missing : disk.node? (place ++ [stem ++ counterEnding]) = none)
      (free : disk.Admits directory place (lowercase stem ++ counterEnding)) :
      Reads disk directory place stem { parsed with lastKey := parsed.rows.length }

/-- The disk once the table file with the stem has been read: a missing second file is written. -/
def healed (disk : Disk) (place : Location) (stem : String) (table : Table) : Disk :=
  match disk.node? (place ++ [stem ++ counterEnding]) with
  | none => disk.put (place ++ [lowercase stem ++ counterEnding]) (.file table.renderKey.toUTF8)
  | some _ => disk

variable {disk other : Disk} {directory : Path} {place : Location} {stem name file text : String}
  {table : Table}

/-- A text can be written in place of another one. -/
theorem HoldsText.admits (holds : disk.HoldsText directory place file text) :
    disk.Admits directory place file :=
  ⟨holds.fits, by simp [holds.stored]⟩

theorem size_of_locate (located : disk.locate directory = .ok place) :
    directory.size ≤ maxPathSize := by
  unfold locate at located
  cases fault : directory.fault? with
  | some fault => simp [fault] at located
  | none => exact (zeroFree_of_fault? fault).2

theorem Leads.isFile_iff (leads : disk.Leads directory place) (proper : IsFileName file) :
    disk.isFile (directory.join file) ↔
      directory.CanName file ∧ ∃ content, disk.node? (place ++ [file]) = some (.file content) := by
  rw [Disk.isFile_iff, leads.locate_join proper]
  split_ifs with fits <;> simp [fits]

/-- A table file that is named after the name of its table can be told by its path. -/
theorem Leads.isFile_table_iff (leads : disk.Leads directory place) (named : IsName name) :
    disk.isFile (Store.tablePath directory name) ↔ disk.Lists directory place name := by
  rw [Store.tablePath, leads.isFile_iff named.isFileName_table]
  constructor
  · rintro ⟨fits, file⟩
    exact ⟨named.isStem, fits, file⟩
  · intro listed
    exact ⟨listed.fits, listed.file⟩

theorem Catalog.of_locate (tree : disk.IsTree) (tidy : disk.Tidy [])
    (located : disk.locate directory = .ok place)
    (stands : disk.node? place = some .directory) : disk.Catalog directory place where
  toLeads := .of_locate located stands
  tree := tree
  tidy _ _ := tidy _ List.nil_prefix

/-- Nothing stands below what is no directory. -/
theorem KeepsDirectories.erase {spot : Location} (tree : disk.IsTree)
    (noDirectory : disk.node? spot ≠ some .directory) :
    KeepsDirectories disk (disk.erase spot) := by
  refine ⟨rfl, fun other directory => ?_⟩
  rw [node?_erase _ (ne_nil_of_node? noDirectory), if_neg]
  · exact directory
  · intro below
    have same := tree.eq_of_prefix noDirectory (List.isPrefixOf_iff_prefix.mp below)
      (by simp [directory])
    exact noDirectory (same ▸ directory)

namespace Catalog

theorem isFileName (catalog : disk.Catalog directory place)
    (stands : disk.node? (place ++ [file]) ≠ none) : IsFileName file :=
  catalog.tree.named place file stands

theorem put (catalog : disk.Catalog directory place) (proper : IsFileName file)
    (noDirectory : disk.node? (place ++ [file]) ≠ some .directory) (content : ByteArray) :
    (disk.put (place ++ [file]) (.file content)).Catalog directory place where
  toLeads := (KeepsDirectories.put (by simp) noDirectory _).leads catalog.toLeads
  tree := catalog.tree.put proper catalog.directory noDirectory _
  tidy := catalog.tidy.put place file _

/-- What is no directory can be taken out, and nothing stood below it. -/
theorem erase (catalog : disk.Catalog directory place)
    (noDirectory : disk.node? (place ++ [file]) ≠ some .directory) :
    (disk.erase (place ++ [file])).Catalog directory place where
  toLeads := (KeepsDirectories.erase catalog.tree noDirectory).leads catalog.toLeads
  tree := catalog.tree.erase (by simp)
  tidy := catalog.tidy.erase _

end Catalog

/-- The files of a table are put into the directory in the place of what is no directory. -/
theorem Catalog.putTable (catalog : disk.Catalog directory place) (named : IsName table.name)
    (noDirectory : ∀ file ∈ [table.name ++ tableEnding, table.name ++ counterEnding],
      disk.node? (place ++ [file]) ≠ some .directory) :
    KeepsDirectories disk (disk.putTable place table) ∧
      (disk.putTable place table).Catalog directory place := by
  simp only [List.forall_mem_cons] at noDirectory
  obtain ⟨noFirst, noSecond, -⟩ := noDirectory
  exact ⟨.putTable noFirst noSecond, (catalog.put named.isFileName_table noFirst _).put
    named.isFileName_counter (noDirectory_put_table noSecond _) _⟩

/-- The files of a table are taken out of the directory. -/
theorem Catalog.eraseTable (catalog : disk.Catalog directory place)
    (noDirectory : ∀ file ∈ [table.name ++ tableEnding, table.name ++ counterEnding],
      disk.node? (place ++ [file]) ≠ some .directory) :
    KeepsDirectories disk (disk.eraseTable place table) ∧
      (disk.eraseTable place table).Catalog directory place := by
  simp only [List.forall_mem_cons] at noDirectory
  obtain ⟨noFirst, noSecond, -⟩ := noDirectory
  have kept : (disk.erase (place ++ [table.name ++ tableEnding])).node?
      (place ++ [table.name ++ counterEnding]) ≠ some .directory := by
    rw [node?_erase _ (by simp)]
    split
    · exact (Option.some_ne_none _).symm
    · exact noSecond
  have removed := catalog.erase noFirst
  exact ⟨(KeepsDirectories.erase catalog.tree noFirst).trans (.erase removed.tree kept),
    removed.erase kept⟩

theorem Lists.isFileName (lists : disk.Lists directory place stem)
    (catalog : disk.Catalog directory place) : IsFileName (stem ++ tableEnding) := by
  obtain ⟨content, stored⟩ := lists.file
  exact catalog.isFileName (by simp [stored])

namespace Reads

/-- A table has the stem of its file in lower case for its name. -/
theorem name_eq (reads : disk.Reads directory place stem table) : table.name = lowercase stem := by
  cases reads with
  | kept _ shaped _ _ => exact (Table.parse_eq_ok shaped).2.1
  | lost _ shaped _ _ _ => exact (Table.parse_eq_ok shaped).2.1

theorem key_eq (reads : disk.Reads directory place stem table) : table.key = lowercase stem := by
  rw [Table.key, reads.name_eq, lowercase_lowercase]

theorem fits (reads : disk.Reads directory place stem table) :
    directory.CanName (stem ++ tableEnding) ∧ directory.CanName (stem ++ counterEnding) := by
  cases reads with
  | kept rows _ counted _ => exact ⟨rows.fits, counted.fits⟩
  | lost rows _ fits _ _ => exact ⟨rows.fits, fits⟩

theorem lists (reads : disk.Reads directory place stem table) (isStem : IsStem stem) :
    disk.Lists directory place stem := by
  cases reads with
  | kept rows _ _ _ => exact ⟨isStem, rows.fits, _, rows.stored⟩
  | lost rows _ _ _ _ => exact ⟨isStem, rows.fits, _, rows.stored⟩

/-- Only three entries of the directory matter. -/
theorem congr (reads : disk.Reads directory place stem table)
    (same : ∀ file ∈ [stem ++ tableEnding, stem ++ counterEnding, lowercase stem ++ counterEnding],
      other.node? (place ++ [file]) = disk.node? (place ++ [file])) :
    other.Reads directory place stem table := by
  simp only [List.forall_mem_cons] at same
  obtain ⟨first, second, third, -⟩ := same
  cases reads with
  | kept rows shaped counted numbered =>
      exact .kept ⟨rows.fits, first.trans rows.stored⟩ shaped
        ⟨counted.fits, second.trans counted.stored⟩ numbered
  | lost rows shaped fits missing free =>
      exact .lost ⟨rows.fits, first.trans rows.stored⟩ shaped fits (second.trans missing)
        ⟨free.fits, third ▸ free.noDirectory⟩

end Reads

/-- What stands in the directory is the same but for the given entries. -/
def SameBut (place : Location) (files : List String) (before after : Disk) : Prop :=
  ∀ file ∉ files, after.node? (place ++ [file]) = before.node? (place ++ [file])

theorem SameBut.symm {files : List String} {before after : Disk}
    (same : SameBut place files before after) : SameBut place files after before :=
  fun file apart => (same file apart).symm

theorem SameBut.trans {files : List String} {before middle after : Disk}
    (first : SameBut place files before middle) (second : SameBut place files middle after) :
    SameBut place files before after :=
  fun file apart => (second file apart).trans (first file apart)

theorem sameBut_putTable (disk : Disk) (place : Location) (table : Table) :
    SameBut place [table.name ++ tableEnding, table.name ++ counterEnding] disk
      (disk.putTable place table) := by
  intro file apart
  simp only [List.mem_cons, List.not_mem_nil, or_false, not_or] at apart
  rw [node?_putTable, if_neg (by simpa using apart.2), if_neg (by simpa using apart.1)]

theorem sameBut_eraseTable (disk : Disk) (place : Location) (table : Table) :
    SameBut place [table.name ++ tableEnding, table.name ++ counterEnding] disk
      (disk.eraseTable place table) := by
  intro file apart
  simp only [List.mem_cons, List.not_mem_nil, or_false, not_or] at apart
  rw [eraseTable, node?_erase_entry, if_neg apart.2, node?_erase_entry, if_neg apart.1]

/-- The table file of a stem is none of the files, if the name is not the stem. -/
theorem Lists.congr {files : List String} (lists : disk.Lists directory place stem)
    (same : SameBut place files disk other) (apart : stem ++ tableEnding ∉ files) :
    other.Lists directory place stem := by
  obtain ⟨content, stored⟩ := lists.file
  exact ⟨lists.isStem, lists.fits, content, (same _ apart).trans stored⟩

theorem SameBut.lists_iff {files : List String} (same : SameBut place files disk other)
    (apart : IsStem stem → stem ++ tableEnding ∉ files) :
    other.Lists directory place stem ↔ disk.Lists directory place stem :=
  ⟨fun there => there.congr same.symm (apart there.isStem),
    fun there => there.congr same (apart there.isStem)⟩

/-- A second file is none of the entries of stems that differ in more than letter case. -/
theorem Reads.sameButCounter (reads : disk.Reads directory place stem table)
    (isStem : IsStem stem) (lower : lowercase name = name) (apart : lowercase stem ≠ name)
    (same : SameBut place [name ++ counterEnding] disk other) :
    other.Reads directory place stem table := by
  have different : stem ≠ name := by
    rintro rfl
    exact apart lower
  refine reads.congr fun file member => same file ?_
  simp only [List.mem_cons, List.not_mem_nil, or_false] at member ⊢
  rcases member with rfl | rfl | rfl
  · exact isStem.ne_counter name
  · exact fun spelled => different (append_ending_inj spelled)
  · exact fun spelled => apart (append_ending_inj spelled)

/-- The files of a table are none of the entries of stems that differ in more than letter case. -/
theorem Reads.sameButTable (reads : disk.Reads directory place stem table)
    (isStem : IsStem stem) (named : IsName name) (apart : lowercase stem ≠ name)
    (same : SameBut place [name ++ tableEnding, name ++ counterEnding] disk other) :
    other.Reads directory place stem table := by
  have different : stem ≠ name := by
    rintro rfl
    exact apart named.lower
  refine reads.congr fun file member => same file ?_
  simp only [List.mem_cons, List.not_mem_nil, or_false] at member
  rcases member with rfl | rfl | rfl
  · exact isStem.not_mem_files different
  all_goals simp only [List.mem_cons, List.not_mem_nil, or_false, not_or]
  · exact ⟨fun spelled => table_ne_counter named stem spelled.symm,
      fun spelled => different (append_ending_inj spelled)⟩
  · exact ⟨fun spelled => table_ne_counter named (lowercase stem) spelled.symm,
      fun spelled => apart (append_ending_inj spelled)⟩

theorem node?_healed (disk : Disk) (place : Location) (stem : String) (table : Table)
    {spot : Location} (apart : spot ≠ place ++ [lowercase stem ++ counterEnding]) :
    (disk.healed place stem table).node? spot = disk.node? spot := by
  unfold healed
  split
  · rw [node?_put _ (by simp), if_neg apart]
  · rfl

theorem sameBut_healed (disk : Disk) (place : Location) (stem : String) (table : Table) :
    SameBut place [lowercase stem ++ counterEnding] disk (disk.healed place stem table) := by
  intro file apart
  apply node?_healed
  intro spelled
  exact apart (List.mem_singleton.mpr (List.singleton_inj.mp (List.append_inj' spelled rfl).2))

theorem stands_healed {spot : Location} (stands : disk.node? spot ≠ none) :
    (disk.healed place stem table).node? spot ≠ none := by
  by_cases apart : spot = place ++ [lowercase stem ++ counterEnding]
  · unfold healed
    split
    · rw [apart, node?_put _ (by simp), if_pos rfl]
      exact Option.some_ne_none _
    · exact stands
  · rwa [node?_healed _ _ _ _ apart]

theorem lists_healed_iff {another : String} :
    (disk.healed place stem table).Lists directory place another ↔
      disk.Lists directory place another := by
  refine (sameBut_healed disk place stem table).lists_iff fun isStem => ?_
  simpa using isStem.ne_counter _

/-- What is written for one stem is not read for another, unless they differ in case alone. -/
theorem reads_healed_iff {another : String} {read : Table} (isStem : IsStem another)
    (apart : lowercase another ≠ lowercase stem) :
    (disk.healed place stem table).Reads directory place another read ↔
      disk.Reads directory place another read := by
  have same := sameBut_healed disk place stem table
  have lower := lowercase_lowercase stem
  exact ⟨fun reads => reads.sameButCounter isStem lower apart same.symm,
    fun reads => reads.sameButCounter isStem lower apart same⟩

theorem Reads.keepsDirectories (reads : disk.Reads directory place stem table) :
    KeepsDirectories disk (disk.healed place stem table) := by
  unfold healed
  cases reads with
  | kept rows shaped counted numbered => simpa only [counted.stored] using .refl disk
  | lost rows shaped fits missing free =>
      simp only [missing]
      exact .put (by simp) free.noDirectory _

theorem Catalog.healed (catalog : disk.Catalog directory place) (isStem : IsStem stem)
    (reads : disk.Reads directory place stem table) :
    (disk.healed place stem table).Catalog directory place := by
  have proper := (reads.lists isStem).isFileName catalog
  unfold Disk.healed
  cases reads with
  | kept rows shaped counted numbered => simpa only [counted.stored] using catalog
  | lost rows shaped fits missing free =>
      simp only [missing]
      exact catalog.put (Store.isFileName_counter_lowercase proper isStem) free.noDirectory _

/-- A table whose second file was missing is read from the one that was written, or its rows are
counted again. -/
theorem Reads.healed (reads : disk.Reads directory place stem table) (isStem : IsStem stem)
    (short : table.HasShortKey) :
    (disk.healed place stem table).Reads directory place stem table := by
  cases reads with
  | kept rows shaped counted numbered =>
      simp only [Disk.healed, counted.stored]
      exact .kept rows shaped counted numbered
  | @lost text parsed rows shaped fits missing free =>
      have first := isStem.ne_counter (lowercase stem)
      simp only [Disk.healed, missing]
      by_cases lower : lowercase stem = stem
      · rw [lower] at first free ⊢
        have numbered := (Table.parseKey_renderKey _).trans (if_pos short)
        refine .kept ⟨rows.fits, ?_⟩ shaped ⟨fits, ?_⟩ numbered
        · rw [node?_put _ (by simp), if_neg (by simpa using first)]
          exact rows.stored
        · rw [node?_put _ (by simp), if_pos rfl]
      · have second : stem ++ counterEnding ≠ lowercase stem ++ counterEnding :=
          fun spelled => lower (append_ending_inj spelled).symm
        refine .lost ⟨rows.fits, ?_⟩ shaped fits ?_ ⟨free.fits, ?_⟩
        · rw [node?_put _ (by simp), if_neg (by simpa using first)]
          exact rows.stored
        · rw [node?_put _ (by simp), if_neg (by simpa using second), missing]
        · rw [node?_put _ (by simp), if_pos rfl]
          exact nofun

end Disk

namespace DiskM

open Disk

variable {disk after : Disk} {directory : Path} {place : Location} {file text : String}

theorem readText_eq_ok_iff (leads : disk.Leads directory place) (proper : IsFileName file) :
    readText (directory.join file) disk = .ok text after ↔
      disk.HoldsText directory place file text ∧ after = disk := by
  constructor
  · intro read
    rw [readText_apply, leads.locate_join proper] at read
    split_ifs at read with fits
    · rcases stands : disk.node? (place ++ [file]) with - | - | content
      · simp [stands] at read
      · simp [stands] at read
      · simp only [stands] at read
        cases decoded : String.fromUTF8? content with
        | none => simp [decoded] at read
        | some found =>
            simp only [decoded] at read
            cases read
            exact ⟨⟨fits, toUTF8_of_fromUTF8? decoded ▸ stands⟩, rfl⟩
  · rintro ⟨holds, rfl⟩
    exact readText_entry leads proper holds.fits holds.stored

theorem readText_missing_iff (leads : disk.Leads directory place) (proper : IsFileName file) :
    readText (directory.join file) disk = .error .notFound after ↔
      (directory.CanName file ∧ disk.node? (place ++ [file]) = none) ∧ after = disk := by
  rw [readText_apply, leads.locate_join proper]
  split_ifs with fits
  · rcases stands : disk.node? (place ++ [file]) with - | - | content
    · simp [fits, stands, eq_comm]
    · simp [stands]
    · simp only [stands]
      cases String.fromUTF8? content <;> simp
  · simp [fits]

theorem writeText_eq_ok_iff (leads : disk.Leads directory place) (proper : IsFileName file) :
    writeText (directory.join file) text disk = .ok () after ↔
      disk.Admits directory place file ∧
        after = disk.put (place ++ [file]) (.file text.toUTF8) := by
  constructor
  · intro wrote
    obtain ⟨spot, located, noDirectory, rfl⟩ := writeText_eq_ok wrote
    rw [leads.locate_join proper] at located
    split_ifs at located with fits
    cases located
    exact ⟨⟨fits, noDirectory⟩, rfl⟩
  · rintro ⟨⟨fits, noDirectory⟩, rfl⟩
    exact writeText_entry leads proper fits noDirectory text

end DiskM

namespace Store

open Disk

variable {disk after : Disk} {directory : Path} {place : Location} {stem : String} {table : Table}

theorem readCounter_eq_some_iff {key : Nat} (leads : disk.Leads directory place)
    (proper : IsFileName (stem ++ counterEnding)) :
    readCounter (counterPath directory stem) disk = .ok (some key) after ↔
      (∃ counter, disk.HoldsText directory place (stem ++ counterEnding) counter ∧
        Table.parseKey counter = .ok key) ∧ after = disk := by
  constructor
  · intro counted
    unfold readCounter at counted
    rcases DiskM.readText_cases (counterPath directory stem) disk with ⟨counter, read⟩ |
      ⟨fault, unread⟩
    · rw [read] at counted
      dsimp only at counted
      obtain ⟨holds, -⟩ := (DiskM.readText_eq_ok_iff leads proper).mp read
      split at counted <;> rename_i numbered <;> cases counted
      exact ⟨⟨counter, holds, numbered⟩, rfl⟩
    · rw [unread] at counted
      cases fault <;> cases counted
  · rintro ⟨⟨counter, holds, numbered⟩, rfl⟩
    have read := (DiskM.readText_eq_ok_iff leads proper).mpr ⟨holds, rfl⟩
    simp only [readCounter, counterPath, read, numbered]

theorem readCounter_eq_none_iff (leads : disk.Leads directory place)
    (proper : IsFileName (stem ++ counterEnding)) :
    readCounter (counterPath directory stem) disk = .ok none after ↔
      (directory.CanName (stem ++ counterEnding) ∧
        disk.node? (place ++ [stem ++ counterEnding]) = none) ∧ after = disk := by
  constructor
  · intro counted
    unfold readCounter at counted
    rcases DiskM.readText_cases (counterPath directory stem) disk with ⟨counter, read⟩ |
      ⟨fault, unread⟩
    · rw [read] at counted
      dsimp only at counted
      split at counted <;> cases counted
    · rw [unread] at counted
      cases fault <;> cases counted
      exact (DiskM.readText_missing_iff leads proper).mp unread
  · rintro ⟨missing, rfl⟩
    have unread := (DiskM.readText_missing_iff leads proper).mpr ⟨missing, rfl⟩
    simp only [readCounter, counterPath, unread]

/-- A table file is read exactly if its entries have what makes a table. -/
theorem loadTable_eq_ok_iff (leads : disk.Leads directory place) (isStem : IsStem stem)
    (proper : IsFileName (stem ++ tableEnding)) :
    loadTable directory stem disk = .ok table after ↔
      disk.Reads directory place stem table ∧ after = disk.healed place stem table := by
  have properCounter := isFileName_counter_of_stem proper isStem
  have properName := isFileName_counter_lowercase proper isStem
  constructor
  · intro done
    obtain ⟨text, parsed, read, shaped, counting⟩ := loadTable_eq_ok done
    obtain ⟨rows, -⟩ := (DiskM.readText_eq_ok_iff leads proper).mp read
    have name := (Table.parse_eq_ok shaped).2.1
    rcases counting with ⟨key, counted, rfl, rfl⟩ | ⟨counted, rfl, wrote⟩
    · obtain ⟨⟨counter, holds, numbered⟩, -⟩ :=
        (readCounter_eq_some_iff leads properCounter).mp counted
      exact ⟨.kept rows shaped holds numbered, by simp only [healed, holds.stored]⟩
    · obtain ⟨⟨fits, missing⟩, -⟩ := (readCounter_eq_none_iff leads properCounter).mp counted
      rw [writeCounter, counterPath, name] at wrote
      obtain ⟨free, rfl⟩ :=
        (DiskM.writeText_eq_ok_iff leads properName).mp (StoreM.ofDisk_eq_ok wrote)
      exact ⟨.lost rows shaped fits missing free, by simp only [healed, missing, name]⟩
  · rintro ⟨reads, rfl⟩
    cases reads with
    | @kept text counter parsed key rows shaped counted numbered =>
        have read := (DiskM.readText_eq_ok_iff leads proper).mpr ⟨rows, rfl⟩
        have count := (readCounter_eq_some_iff leads properCounter).mpr
          ⟨⟨counter, counted, numbered⟩, rfl⟩
        simp only [healed, counted.stored]
        apply (Work.bind_ok (StoreM.ofDisk_ok read) _).trans
        rw [shaped]
        exact (Work.bind_ok rfl _).trans (Work.bind_ok count _)
    | @lost text parsed rows shaped fits missing free =>
        have read := (DiskM.readText_eq_ok_iff leads proper).mpr ⟨rows, rfl⟩
        have count := (readCounter_eq_none_iff leads properCounter).mpr ⟨⟨fits, missing⟩, rfl⟩
        have name := (Table.parse_eq_ok shaped).2.1
        have wrote := DiskM.writeText_entry leads properName free.fits free.noDirectory
          ({ parsed with lastKey := parsed.rows.length } : Table).renderKey
        rw [← name] at wrote
        simp only [healed, missing, ← name]
        apply (Work.bind_ok (StoreM.ofDisk_ok read) _).trans
        rw [shaped]
        apply (Work.bind_ok rfl _).trans
        apply (Work.bind_ok count _).trans
        exact Work.bind_ok (StoreM.ofDisk_ok wrote) _

end Store

theorem Disk.Reads.unique {disk : Disk} {directory : Path} {place : Location} {stem : String}
    {first second : Table} (catalog : disk.Catalog directory place) (isStem : IsStem stem)
    (reads : disk.Reads directory place stem first)
    (alsoReads : disk.Reads directory place stem second) : first = second := by
  have proper := (reads.lists isStem).isFileName catalog
  have loads := (Store.loadTable_eq_ok_iff catalog.toLeads isStem proper).mpr ⟨reads, rfl⟩
  have alsoLoads := (Store.loadTable_eq_ok_iff catalog.toLeads isStem proper).mpr ⟨alsoReads, rfl⟩
  cases loads.symm.trans alsoLoads
  rfl

end TextTables
