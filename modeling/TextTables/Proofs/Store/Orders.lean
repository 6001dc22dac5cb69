import TextTables.Proofs.Disk.Orders
import TextTables.Proofs.Store.Gathering
import TextTables.Proofs.Store.Resaving

/-!
# Reading in any order

Reading a database writes the second files that are missing, and so what is read of one table file
could depend on which others were read before. It does not, since a directory with two table files
that differ in letter case alone is not read at all, and the entries of all other stems are not
shared. So the order in which the directory is listed makes no difference, neither for the database
nor for what stands on the disk afterwards. Once read, a directory is read again without a change.
-/

namespace TextTables

open Location Text

/-! ### The number of rows -/

theorem Text.length_splitOn_le {Item : Type} [DecidableEq Item] (separator : Item)
    (text : List Item) : (text.splitOn separator).length ≤ text.length + 1 := by
  induction text using cut_induction separator with
  | whole piece free => simp [List.splitOn_eq_singleton free]
  | cut piece rest free inductionHypothesis =>
      rw [List.splitOn_append_cons_self_of_not_mem free]
      simp only [List.length_cons, List.length_append]
      omega

theorem Text.length_le_bytes (text : List Char) : text.length ≤ (bytes text).length := by
  induction text with
  | nil => exact Nat.zero_le _
  | cons c rest inductionHypothesis =>
      have encoded := List.length_pos_iff.mpr (String.utf8EncodeChar_ne_nil (c := c))
      have split : bytes (c :: rest) = String.utf8EncodeChar c ++ bytes rest := rfl
      rw [split, List.length_append, List.length_cons]
      omega

theorem Table.length_lines_le (text : List Char) : (lines text).length ≤ text.length + 1 := by
  have pieces := length_splitOn_le '\n' text
  have last : (text.splitOn '\n').getLast?.toList.length ≤ 1 := by
    cases (text.splitOn '\n').getLast? <;> simp
  rw [lines, List.length_append, List.length_map, List.length_dropLast]
  omega

/-- A text has at least a byte for each row. -/
theorem Table.length_rows_le {name text : String} {table : Table}
    (read : parse name text = .ok table) : table.rows.length ≤ text.toUTF8.size := by
  obtain ⟨-, header, rows, shape, rfl⟩ := exists_lines_of_parse read
  have short := length_lines_le text.toList
  have kept := List.length_filter_le (· ≠ []) rows
  have encoded : text.toList.length ≤ text.toUTF8.size := by
    have whole := congrArg List.length (toList_toUTF8 text)
    rw [Array.length_toList] at whole
    exact (length_le_bytes text.toList).trans_eq whole.symm
  rw [shape, List.length_cons] at short
  simp only [List.length_map]
  omega

/-- The number of bytes in a file. -/
def Node.size : Node → Nat
  | .directory => 0
  | .file content => content.size

namespace Disk

/-- The bytes of every file can be counted with 64 bits. -/
def HasFileSizes (disk : Disk) : Prop :=
  ∀ place node, disk.node? place = some node → node.size < UInt64.size

theorem hasFileSizes_of_entries {disk : Disk}
    (sized : ∀ entry ∈ disk.entries, entry.2.size < UInt64.size) : disk.HasFileSizes := by
  intro place node stored
  unfold node? at stored
  split at stored
  · cases stored
    decide
  · obtain ⟨before, after, split, -⟩ := List.lookup_eq_some_iff.mp stored
    exact sized (place, node) (by simp [split])

/-- The table file of the stem is listed, and its second file is missing. -/
structure Lacks (disk : Disk) (directory : Path) (place : Location) (stem : String) : Prop
    extends disk.Lists directory place stem where
  missing : disk.node? (place ++ [stem ++ counterEnding]) = none

/-- The second files that are missing for the listed table files have been written, each for the
table that was read, and all else is as before. -/
structure Mends (directory : Path) (place : Location) (entries : List String)
    (before after : Disk) : Prop where
  written : ∀ stem table, stem ++ tableEnding ∈ entries → before.Lacks directory place stem →
    before.Reads directory place stem table →
      after.node? (place ++ [lowercase stem ++ counterEnding]) =
        some (.file table.renderKey.toUTF8)
  kept : ∀ spot, (∀ stem, stem ++ tableEnding ∈ entries → before.Lacks directory place stem →
    spot ≠ place ++ [lowercase stem ++ counterEnding]) → after.node? spot = before.node? spot

variable {disk other : Disk} {directory : Path} {place : Location} {stem another : String}
  {table read : Table} {database : Database}

theorem Reads.hasShortKey (reads : disk.Reads directory place stem table)
    (sized : disk.HasFileSizes) : table.HasShortKey := by
  cases reads with
  | kept _ _ _ numbered => exact Table.parseKey_lt numbered
  | lost rows shaped _ _ _ =>
      exact (Table.length_rows_le shaped).trans_lt (sized _ _ rows.stored)

namespace Same

theorem symm (same : disk.Same other) : other.Same disk :=
  fun place => (same place).symm

theorem lists (same : disk.Same other) (lists : disk.Lists directory place stem) :
    other.Lists directory place stem := by
  obtain ⟨content, stored⟩ := lists.file
  exact ⟨lists.isStem, lists.fits, content, (same _).trans stored⟩

theorem lacks (same : disk.Same other) (lacks : disk.Lacks directory place stem) :
    other.Lacks directory place stem :=
  ⟨same.lists lacks.toLists, (same _).trans lacks.missing⟩

theorem reads (same : disk.Same other) (reads : disk.Reads directory place stem table) :
    other.Reads directory place stem table :=
  reads.congr fun _ _ => same _

theorem carries (same : disk.Same other) (carries : disk.Carries directory place database) :
    other.Carries directory place database where
  sorted := carries.sorted
  stored table member := by
    obtain ⟨stem, listed, reads⟩ := carries.stored table member
    exact ⟨stem, same.lists listed, same.reads reads⟩
  readable stem listed := by
    obtain ⟨table, member, reads⟩ := carries.readable stem (same.symm.lists listed)
    exact ⟨table, member, same.reads reads⟩
  apart first second here there :=
    carries.apart first second (same.symm.lists here) (same.symm.lists there)

end Same

theorem Relists.isTree (relists : disk.Relists other) (tree : disk.IsTree) : other.IsTree where
  named place name stands := tree.named place name (relists.same _ ▸ stands)
  grounded place name stands :=
    (relists.same place).trans (tree.grounded place name (relists.same _ ▸ stands))

theorem Relists.catalog (relists : disk.Relists other) (tidy : disk.Tidy [])
    (catalog : disk.Catalog directory place) (located : disk.locate directory = .ok place) :
    other.Catalog directory place :=
  .of_locate (relists.isTree catalog.tree) (relists.tidy tidy)
    ((relists.locate directory).trans located) ((relists.same place).trans catalog.directory)

/-- What is written for one stem does not make up for what is missing for another. -/
theorem lacks_healed_iff (apart : lowercase another ≠ lowercase stem) :
    (disk.healed place stem table).Lacks directory place another ↔
      disk.Lacks directory place another := by
  have same : (disk.healed place stem table).node? (place ++ [another ++ counterEnding]) =
      disk.node? (place ++ [another ++ counterEnding]) := by
    refine sameBut_healed disk place stem table _ fun member => apart ?_
    rw [append_ending_inj (List.mem_singleton.mp member), lowercase_lowercase]
  constructor
  · rintro ⟨listed, missing⟩
    exact ⟨lists_healed_iff.mp listed, same ▸ missing⟩
  · rintro ⟨listed, missing⟩
    exact ⟨lists_healed_iff.mpr listed, same ▸ missing⟩

theorem Lacks.node?_healed (lacks : disk.Lacks directory place stem) (table : Table) :
    (disk.healed place stem table).node? (place ++ [lowercase stem ++ counterEnding]) =
      some (.file table.renderKey.toUTF8) := by
  simp only [healed, lacks.missing]
  rw [node?_put _ (by simp), if_pos rfl]

end Disk

namespace Store

open Disk

variable {disk other after : Disk} {directory : Path} {place : Location} {stem name : String}
  {base final database found : Database} {table : Table} {store : Store}

/-- What the other entries leave of a disk on which one table file has been read. -/
theorem mends_cons_table {rest : List String} (catalog : disk.Catalog directory place)
    (listed : disk.Lists directory place stem) (reads : disk.Reads directory place stem table)
    (once : stem ++ tableEnding ∉ rest)
    (apart : ∀ other, disk.Lists directory place other → lowercase other = lowercase stem →
      other = stem)
    (mends : Mends directory place rest (disk.healed place stem table) after) :
    Mends directory place ((stem ++ tableEnding) :: rest) disk after := by
  have different : ∀ other, other ++ tableEnding ∈ rest → disk.Lists directory place other →
      lowercase other ≠ lowercase stem := by
    intro other member there same
    exact once (apart other there same ▸ member)
  constructor
  · intro another read member lacks alsoReads
    rcases List.mem_cons.mp member with same | later
    · obtain rfl := append_ending_inj same
      obtain rfl := alsoReads.unique catalog listed.isStem reads
      rw [mends.kept, lacks.node?_healed]
      intro other inside missing spelled
      have there := lists_healed_iff.mp missing.toLists
      have same : lowercase other ++ counterEnding = lowercase another ++ counterEnding :=
        (List.singleton_inj.mp (List.append_cancel_left spelled)).symm
      exact different other inside there (append_ending_inj same)
    · have alien := different another later lacks.toLists
      exact mends.written another read later ((lacks_healed_iff alien).mpr lacks)
        ((reads_healed_iff lacks.isStem alien).mpr alsoReads)
  · intro spot free
    rw [mends.kept]
    · by_cases lost : disk.node? (place ++ [stem ++ counterEnding]) = none
      · exact node?_healed disk place stem table (free stem List.mem_cons_self ⟨listed, lost⟩)
      · unfold healed
        split
        · contradiction
        · rfl
    · intro other inside missing
      have there := lists_healed_iff.mp missing.toLists
      exact free other (.tail _ inside)
        ((lacks_healed_iff (different other inside there)).mp missing)

theorem mends_of_loadEntries {entries : List String} (catalog : disk.Catalog directory place)
    (stand : ∀ entry ∈ entries, disk.node? (place ++ [entry]) ≠ none) (once : entries.Nodup)
    (apart : ∀ first second, disk.Lists directory place first →
      disk.Lists directory place second → lowercase first = lowercase second → first = second)
    (done : (entries.foldlM (loadEntry directory) base : StoreM Database) disk = .ok final after) :
    Mends directory place entries disk after := by
  induction entries generalizing disk base with
  | nil =>
      cases done
      exact ⟨fun _ _ member => absurd member List.not_mem_nil, fun _ _ => rfl⟩
  | cons entry rest inductionHypothesis =>
      obtain ⟨here, others⟩ := List.forall_mem_cons.mp stand
      obtain ⟨notAgain, restOnce⟩ := List.nodup_cons.mp once
      rw [List.foldlM_cons] at done
      obtain ⟨next, middle, step, later⟩ := Work.bind_eq_ok_iff.mp done
      rcases (loadEntry_eq_ok_iff catalog here).mp step with
        ⟨stem, table, rfl, listed, reads, -, -, rfl⟩ | ⟨foreign, -, unchanged⟩
      · refine mends_cons_table catalog listed reads notAgain
          (fun other there same => apart other stem there listed same) ?_
        exact inductionHypothesis (catalog.healed listed.isStem reads)
          (fun other member => stands_healed (others other member)) restOnce
          (fun first second here there =>
            apart first second (lists_healed_iff.mp here) (lists_healed_iff.mp there)) later
      · obtain rfl : disk = middle := unchanged.symm
        have mends := inductionHypothesis catalog others restOnce apart later
        have inside : ∀ stem, disk.Lists directory place stem →
            (stem ++ tableEnding ∈ entry :: rest ↔ stem ++ tableEnding ∈ rest) := by
          intro stem listed
          rw [List.mem_cons, or_iff_right]
          exact fun same => foreign stem same.symm listed
        refine ⟨fun stem table member lacks => ?_, fun spot free => ?_⟩
        · exact mends.written stem table ((inside stem lacks.toLists).mp member) lacks
        · exact mends.kept spot fun stem member lacks => free stem (.tail _ member) lacks

/-- What a database that was read has left on the disk can be told from the disk before. -/
theorem mends_of_loadDatabase (catalog : disk.Catalog (store.directory name) place)
    (located : disk.locate (store.directory name) = .ok place)
    (done : store.loadDatabase name disk = .ok final after) :
    Mends (store.directory name) place (disk.names place) disk after := by
  obtain ⟨-, carries⟩ := (loadDatabase_eq_ok_iff catalog located).mp ⟨after, done⟩
  rw [loadDatabase_apply catalog.toLeads located] at done
  exact mends_of_loadEntries catalog (fun entry => mem_names_iff.mp)
    (catalog.tidy place (List.prefix_refl place)) carries.apart done

/-- The same stands after a database was read from disks on which the same stood. -/
theorem same_of_mends {found : Disk} (relists : disk.Relists other)
    (carries : disk.Carries directory place database)
    (mends : Mends directory place (disk.names place) disk after)
    (alsoMends : Mends directory place (other.names place) other found) : after.Same found := by
  have same := relists.same
  intro spot
  by_cases lost : ∃ stem, disk.Lacks directory place stem ∧
      spot = place ++ [lowercase stem ++ counterEnding]
  · obtain ⟨stem, lacks, rfl⟩ := lost
    obtain ⟨table, -, reads⟩ := carries.readable stem lacks.toLists
    rw [mends.written stem table lacks.toLists.mem_names lacks reads,
      alsoMends.written stem table (same.lists lacks.toLists).mem_names (same.lacks lacks)
        (same.reads reads)]
  · rw [mends.kept spot, alsoMends.kept spot, same]
    · exact fun stem _ lacks spelled => lost ⟨stem, same.symm.lacks lacks, spelled⟩
    · exact fun stem _ lacks spelled => lost ⟨stem, lacks, spelled⟩

/-- Reading only puts files on the disk. -/
theorem tidy_of_loadDatabase (tidy : disk.Tidy [])
    (done : store.loadDatabase name disk = .ok database after) :
    after.home = disk.home ∧ after.Tidy [] := by
  obtain ⟨place, -, -, folded⟩ := loadDatabase_eq_ok done
  refine Work.foldlM_preserves (fun _ now => now.home = disk.home ∧ now.Tidy []) ?_ ⟨rfl, tidy⟩
    folded
  rintro entry - sofar now next left ⟨home, tidy⟩ step
  rcases loadEntry_eq_ok step with ⟨-, rfl, -⟩ | ⟨stem, table, -, -, loads, -⟩
  · exact ⟨home, tidy⟩
  · obtain ⟨text, parsed, -, -, ⟨key, -, -, rfl⟩ | ⟨-, -, wrote⟩⟩ := loadTable_eq_ok loads
    · exact ⟨home, tidy⟩
    · obtain ⟨spot, -, noDirectory, rfl⟩ := DiskM.writeText_eq_ok (StoreM.ofDisk_eq_ok wrote)
      obtain ⟨parent, last, rfl⟩ :=
        (List.eq_nil_or_concat spot).resolve_left (ne_nil_of_node? noDirectory)
      rw [List.concat_eq_append]
      exact ⟨(home_put _ _ _).trans home, tidy.put parent last _⟩

/-- A directory whose missing second files are written is read without a change, not even of the
order of the entries. -/
theorem loadDatabase_eq_self (catalog : disk.Catalog (store.directory name) place)
    (located : disk.locate (store.directory name) = .ok place)
    (whole : ∀ stem table, disk.Lacks (store.directory name) place stem →
      disk.Reads (store.directory name) place stem table →
        disk.node? (place ++ [lowercase stem ++ counterEnding]) =
          some (.file table.renderKey.toUTF8))
    (done : store.loadDatabase name disk = .ok database after) : after = disk := by
  rw [loadDatabase_apply catalog.toLeads located] at done
  refine Work.foldlM_preserves (fun _ now => now = disk) ?_ rfl done
  rintro entry member sofar now next left rfl step
  rcases (loadEntry_eq_ok_iff catalog (mem_names_iff.mp member)).mp step with
    ⟨stem, table, -, listed, reads, -, -, rfl⟩ | ⟨-, -, unchanged⟩
  · unfold healed
    split
    · rename_i missing
      exact catalog.tidy.put_eq_self (whole stem table ⟨listed, missing⟩ reads)
    · rfl
  · exact unchanged

theorem loadDatabase_of_relists (tree : disk.IsTree) (tidy : disk.Tidy [])
    (relists : disk.Relists other)
    (read : ∃ after, store.loadDatabase name disk = .ok database after) :
    ∃ after, store.loadDatabase name other = .ok database after := by
  obtain ⟨after, done⟩ := read
  obtain ⟨place, leads, located, -⟩ := loadDatabase_eq_ok done
  have catalog := Catalog.of_locate tree tidy located leads.directory
  obtain ⟨called, carries⟩ := (loadDatabase_eq_ok_iff catalog located).mp ⟨after, done⟩
  exact (loadDatabase_eq_ok_iff (relists.catalog tidy catalog located)
    ((relists.locate _).trans located)).mpr ⟨called, relists.same.carries carries⟩

/-- A database of two tables, one in capitals and without its second file, and some other entries
beside their files. -/
def mixed : Disk :=
  ⟨[], [(["r"], .directory), (["r", "d"], .directory), (["r", "d", "u.tab"], .file "A".toUTF8),
    (["r", "d", "T.tab"], .file "B\n1".toUTF8), (["r", "d", "notes"], .file "x".toUTF8),
    (["r", "d", "u_config.tab"], .file "pk=7".toUTF8), (["r", "d", "x.tab"], .directory)]⟩

end Store

end TextTables
