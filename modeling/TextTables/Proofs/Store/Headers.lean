import TextTables.Proofs.Disk.Standing
import TextTables.Proofs.Store.Reading
import TextTables.Proofs.Table.KeyColumn

/-!
# Headers of the files that are read

A database is read from files as they are found. The second files that are written on the way are
no files of tables, so that each header stands when its turn comes as it did before. All tables
that were read start with the primary key exactly if all headers do.
-/

namespace TextTables

open Text Location

/-- The last piece of a text ends as the text does. -/
theorem exists_splitOn_append (text : List Char) {ending : List Char} (plain : '/' ∉ ending) :
    ∃ front last, (text ++ ending).splitOn '/' = front ++ [last ++ ending] ∧ last <:+ text := by
  -- A piece can only grow at its front as long as it is the first one.
  suffices strong : ∃ front last, (text ++ ending).splitOn '/' = front ++ [last ++ ending] ∧
      last <:+ text ∧ (front = [] → last = text) by
    obtain ⟨front, last, split, suffix, -⟩ := strong
    exact ⟨front, last, split, suffix⟩
  induction text with
  | nil => exact ⟨[], [], List.splitOn_eq_singleton plain, List.suffix_rfl, fun _ => rfl⟩
  | cons c rest inductionHypothesis =>
      obtain ⟨front, last, split, suffix, whole⟩ := inductionHypothesis
      rw [List.cons_append, List.splitOn_cons_eq_if_modifyHead, split]
      split
      · exact ⟨[] :: front, last, rfl, suffix.trans (List.suffix_cons _ _), nofun⟩
      · cases front with
        | nil =>
            rw [whole rfl]
            exact ⟨[], c :: rest, rfl, List.suffix_rfl, fun _ => rfl⟩
        | cons first others =>
            exact ⟨(c :: first) :: others, last, rfl, suffix.trans (List.suffix_cons _ _), nofun⟩

/-- What a name with an ending leads to has a name with that ending. -/
theorem Disk.exists_of_locate_append {disk : Disk} {directory : Path} {name ending : String}
    {place : Location} (plain : '/' ∉ ending.toList) (long : 2 < ending.toList.length)
    (located : disk.locate (directory.join (name ++ ending)) = .ok place) :
    ∃ parent last, place = parent ++ [last] ∧ ending.toList <:+ last.toList ∧
      last.toList <:+ (name ++ ending).toList := by
  obtain ⟨front, last, split, inside⟩ := exists_splitOn_append name.toList plain
  have tail : (Path.ofText (name ++ ending)).segments =
      front.map String.ofList ++ [String.ofList (last ++ ending.toList)] := by
    rw [Path.ofText, String.toList_append, split, List.map_append]
    rfl
  have whole : ∃ before, (directory.join (name ++ ending)).segments =
      before ++ [String.ofList (last ++ ending.toList)] := by
    unfold Path.join
    dsimp only
    split
    · exact ⟨_, tail⟩
    · split <;> exact ⟨_, by rw [tail, ← List.append_assoc]⟩
  obtain ⟨before, segments⟩ := whole
  have suffix : last ++ ending.toList <:+ (name ++ ending).toList := by
    obtain ⟨before, whole⟩ := inside
    exact ⟨before, by rw [String.toList_append, ← whole, List.append_assoc]⟩
  have proper : ∀ short : String, short.toList.length ≤ 2 →
      String.ofList (last ++ ending.toList) ≠ short := by
    rintro short small rfl
    rw [String.toList_ofList, List.length_append] at small
    omega
  have reached : reach (disk.start (directory.join (name ++ ending)))
      (directory.join (name ++ ending)).segments = place := by
    unfold Disk.locate at located
    split at located
    · cases located
    · exact reach_eq_of_follow located
  rw [segments, reach, List.foldl_append, List.foldl_cons, List.foldl_nil, enter,
    if_neg (not_or.mpr ⟨proper "" (by decide), proper "." (by decide)⟩),
    if_neg (proper ".." (by decide))] at reached
  refine ⟨_, _, reached.symm, ?_, ?_⟩
  · rw [String.toList_ofList]
    exact List.suffix_append _ _
  · rw [String.toList_ofList]
    exact suffix

namespace Store

/-- Nothing was written but second files of tables. -/
structure Restored (before after : Disk) : Prop where
  keeps : before.KeepsDirectories after
  back : after.KeepsDirectories before
  others : ∀ parent name, ¬ counterEnding.toList <:+ name.toList →
    after.node? (parent ++ [name]) = before.node? (parent ++ [name])

namespace Restored

variable {before middle after : Disk} {directory : Path} {table : Table} {stem text : String}

theorem refl (disk : Disk) : Restored disk disk :=
  ⟨.refl disk, .refl disk, fun _ _ _ => rfl⟩

theorem writeCounter (written : writeCounter directory table before = .ok () after) :
    Restored before after := by
  obtain ⟨place, located, noDirectory, rfl⟩ :=
    DiskM.writeText_eq_ok (StoreM.ofDisk_eq_ok written)
  have below := Disk.ne_nil_of_node? noDirectory
  refine ⟨.put below noDirectory _, .of_putFile below _, fun parent name other => ?_⟩
  obtain ⟨top, last, rfl, ends, -⟩ :=
    Disk.exists_of_locate_append (by decide) (by decide) located
  rw [Disk.node?_put _ below, if_neg]
  intro same
  obtain ⟨-, spelled⟩ := List.append_inj' same rfl
  exact other ((List.singleton_inj.mp spelled) ▸ ends)

/-- The files of tables are what they were. -/
theorem readText (restored : Restored before after)
    (isTable : ¬ counterEnding.toList <:+ (stem ++ tableEnding).toList)
    (read : DiskM.readText (directory.join (stem ++ tableEnding)) before = .ok text before) :
    DiskM.readText (directory.join (stem ++ tableEnding)) after = .ok text after := by
  rw [DiskM.readText_apply] at read ⊢
  cases located : before.locate (directory.join (stem ++ tableEnding)) with
  | error fault => simp [located] at read
  | ok place =>
      obtain ⟨parent, last, rfl, -, inside⟩ :=
        Disk.exists_of_locate_append (by decide) (by decide) located
      have same := restored.others parent last fun counter => isTable (counter.trans inside)
      simp only [located] at read
      simp only [restored.keeps.locate located, same]
      rcases stands : before.node? (parent ++ [last]) with - | - | content
      · simp [stands] at read
      · simp [stands] at read
      · simp only [stands] at read ⊢
        cases decoded : String.fromUTF8? content with
        | none => simp [decoded] at read
        | some other =>
            simp only [decoded, EStateM.Result.ok.injEq, and_true] at read ⊢
            exact read

end Restored

end Store

/-- If the directory entry is the file of a table, the first column of its header is that of the
primary key. -/
def Disk.HasKeyHeader (disk : Disk) (directory : Path) (entry : String) : Prop :=
  ∀ stem text, Store.stem? entry = some stem →
    DiskM.readText (directory.join entry) disk = .ok text disk →
      ∃ column, (Table.headerOf text).head? = some column ∧ sameIgnoringCase column primaryKey

/-- All files of tables in the directory have headers that start with the primary key. -/
def Disk.HasKeyHeaders (disk : Disk) (directory : Path) : Prop :=
  ∀ place, disk.locate directory = .ok place →
    ∀ entry ∈ disk.names place, disk.HasKeyHeader directory entry

namespace Store

variable {disk after : Disk} {directory : Path} {database next : Database} {entry name : String}
  {store : Store}

theorem Restored.hasKeyHeader_iff {before after : Disk} (restored : Restored before after) :
    after.HasKeyHeader directory entry ↔ before.HasKeyHeader directory entry := by
  have mirrored : Restored after before :=
    ⟨restored.back, restored.keeps,
      fun parent name other => (restored.others parent name other).symm⟩
  constructor
  · intro header stem text named read
    obtain ⟨rfl, isTable⟩ := stem?_eq_some named
    exact header stem text named (restored.readText isTable read)
  · intro header stem text named read
    obtain ⟨rfl, isTable⟩ := stem?_eq_some named
    exact header stem text named (mirrored.readText isTable read)

theorem restored_of_loadEntry (done : loadEntry directory database entry disk = .ok next after) :
    Restored disk after := by
  rcases loadEntry_eq_ok done with ⟨-, rfl, -⟩ | ⟨stem, table, -, -, loaded, -, -⟩
  · exact .refl after
  · obtain ⟨-, -, -, -, ⟨-, -, -, rfl⟩ | ⟨-, -, written⟩⟩ := loadTable_eq_ok loaded
    · exact .refl after
    · exact .writeCounter written

/-- One entry brings no table, or one that is as keyed as its header. -/
theorem keyed_iff_of_loadEntry (done : loadEntry directory database entry disk = .ok next after) :
    (∀ table ∈ next.tables, table.Keyed) ↔
      (∀ table ∈ database.tables, table.Keyed) ∧ disk.HasKeyHeader directory entry := by
  rcases loadEntry_eq_ok done with ⟨rfl, rfl, noFile⟩ | ⟨stem, table, named, -, loaded, -, rfl⟩
  · refine ⟨fun keyed => ⟨keyed, fun stem text named read => ?_⟩, And.left⟩
    have isFile := DiskM.isFile_of_readText read
    rw [noFile stem named] at isFile
    cases isFile
  · obtain ⟨rfl, -⟩ := stem?_eq_some named
    obtain ⟨text, parsed, read, accepted, same⟩ := parse_of_loadTable loaded
    obtain ⟨-, -, columns⟩ := Table.parse_eq_ok accepted
    have header : table.Keyed ↔ disk.HasKeyHeader directory (stem ++ tableEnding) := by
      have spelled : table.columns = Table.headerOf text := by rw [same]; exact columns
      unfold Table.Keyed Disk.HasKeyHeader
      rw [spelled]
      constructor
      · intro keyed other found _ again
        cases read.symm.trans again
        exact keyed
      · intro all
        exact all stem text named read
    rw [← header]
    constructor
    · intro keyed
      exact ⟨fun other old => keyed other (Database.mem_place.mpr (.inr old)),
        keyed table (Database.mem_place.mpr (.inl rfl))⟩
    · rintro ⟨keyed, first⟩ other member
      rcases Database.mem_place.mp member with rfl | old
      · exact first
      · exact keyed other old

theorem keyed_iff_of_loadEntries {entries : List String}
    (done : (entries.foldlM (loadEntry directory) database : StoreM Database) disk =
      .ok next after) :
    (∀ table ∈ next.tables, table.Keyed) ↔
      (∀ table ∈ database.tables, table.Keyed) ∧
        ∀ entry ∈ entries, disk.HasKeyHeader directory entry := by
  induction entries generalizing database disk with
  | nil =>
      cases done
      simp
  | cons entry rest inductionHypothesis =>
      rw [List.foldlM_cons] at done
      obtain ⟨first, middle, step, others⟩ := Work.bind_eq_ok_iff.mp done
      have restored := restored_of_loadEntry step
      rw [inductionHypothesis others, keyed_iff_of_loadEntry step, List.forall_mem_cons, and_assoc]
      simp only [restored.hasKeyHeader_iff]

/-- The headers of the files decide whether all tables start with the primary key. -/
theorem keyed_iff_of_loadDatabase (done : store.loadDatabase name disk = .ok database after) :
    (∀ table ∈ database.tables, table.Keyed) ↔ disk.HasKeyHeaders (store.directory name) := by
  obtain ⟨place, -, located, folded⟩ := loadDatabase_eq_ok done
  rw [keyed_iff_of_loadEntries folded]
  constructor
  · rintro ⟨-, headers⟩ other found
    cases located.symm.trans found
    exact headers
  · intro headers
    exact ⟨by simp [Database.empty], headers place located⟩

end Store

end TextTables
