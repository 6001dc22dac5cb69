import TextTables.Proofs.Store.Directories
import TextTables.Proofs.Store.Opening

/-!
# What failed work leaves on the disk

Work on a table takes more than one step on the disk, and what was done before a step that fails
stays. So failed work has left the disk as it was exactly if its first step had not gone through,
or had changed nothing.
-/

namespace TextTables

open Work

namespace Disk

/-- The same stands everywhere on both disks. -/
def Same (before after : Disk) : Prop :=
  ∀ place, after.node? place = before.node? place

/-- A file can be written at the end of the path, and holds something else so far. -/
def Rewrites (disk : Disk) (path : Path) (text : String) : Prop :=
  ∃ place, disk.locate path = .ok place ∧ disk.node? place ≠ some .directory ∧
    disk.node? place ≠ some (.file text.toUTF8)

/-- The path leads to a place where nothing stands. -/
def IsFree (disk : Disk) (path : Path) : Prop :=
  ∃ place, disk.locate path = .ok place ∧ disk.node? place = none

/-- What stands on the disk has the name of a file or directory. -/
def HasFileNames (disk : Disk) : Prop :=
  ∀ place name, disk.node? (place ++ [name]) ≠ none → IsFileName name

/-- The path leads to a directory, of which the first entry can be named. -/
def CanEmpty (disk : Disk) (path : Path) : Prop :=
  ∃ place first rest, disk.locate path = .ok place ∧ disk.node? place = some .directory ∧
    disk.names place = first :: rest ∧ path.CanName first

variable {disk : Disk} {path : Path} {place : Location} {node : Node}

theorem Same.refl (disk : Disk) : disk.Same disk := fun _ => rfl

theorem hasFileNames_of_entries
    (named : ∀ entry ∈ disk.entries, ∀ name ∈ entry.1, IsFileName name) : disk.HasFileNames := by
  intro place name stands
  obtain ⟨entry, member, spelled⟩ := (lookup_ne_none_iff _ _).mp (by simpa [node?] using stands)
  exact named entry member name (by simp [spelled])

theorem ne_nil_of_node? (noDirectory : disk.node? place ≠ some .directory) : place ≠ [] := by
  rintro rfl
  exact noDirectory rfl

theorem same_put_iff (noDirectory : disk.node? place ≠ some .directory) :
    disk.Same (disk.put place node) ↔ disk.node? place = some node := by
  have below := ne_nil_of_node? noDirectory
  constructor
  · intro same
    rw [← same place, node?_put _ below, if_pos rfl]
  · intro stored other
    rw [node?_put _ below]
    split
    · rename_i here
      rw [here, stored]
    · rfl

theorem locate_congr {other : Disk} (home : other.home = disk.home)
    (same : ∀ place, disk.node? place = other.node? place) (path : Path) :
    disk.locate path = other.locate path := by
  have starts : other.start path = disk.start path := by rw [start, start, home]
  rw [locate, locate, starts]
  cases path.fault? with
  | some fault => rfl
  | none => exact follow_congr fun passed _ => same passed

theorem node?_erase_of_missing {gone : Location} (missing : disk.node? gone = none)
    (place : Location) : (disk.erase place).node? gone = none := by
  by_cases below : place = []
  · have inner : gone ≠ [] := by
      rintro rfl
      cases missing
    subst below
    simp [erase, node?, inner]
  · rw [node?_erase _ below, missing]
    split <;> rfl

theorem isDirectory_iff :
    disk.isDirectory path ↔ ∃ place, disk.locate path = .ok place ∧
      disk.node? place = some .directory := by
  unfold isDirectory lookup?
  cases located : disk.locate path with
  | error fault => simp
  | ok place => simp

theorem Leads.of_locate (located : disk.locate path = .ok place)
    (directory : disk.node? place = some .directory) : disk.Leads path place := by
  unfold Disk.locate at located
  cases fault : path.fault? with
  | some fault => simp [fault] at located
  | none =>
      simp only [fault] at located
      exact ⟨(zeroFree_of_fault? fault).1, located, directory⟩

theorem isFile_iff :
    disk.isFile path ↔ ∃ place content, disk.locate path = .ok place ∧
      disk.node? place = some (.file content) := by
  unfold isFile lookup?
  cases located : disk.locate path with
  | error fault => simp
  | ok place => rcases stands : disk.node? place with - | - | content <;> simp [stands]

end Disk

namespace DiskM

variable {disk after : Disk} {path : Path} {text : String} {fault : Fault}

theorem writeText_eq_ok (done : writeText path text disk = .ok () after) :
    ∃ place, disk.locate path = .ok place ∧ disk.node? place ≠ some .directory ∧
      after = disk.put place (.file text.toUTF8) := by
  rw [writeText_apply] at done
  cases located : disk.locate path with
  | error fault => simp [located] at done
  | ok place =>
      by_cases directory : disk.node? place = some .directory
      · simp [located, directory] at done
      · simp only [located, directory, if_false, EStateM.Result.ok.injEq, true_and] at done
        exact ⟨place, rfl, directory, done.symm⟩

theorem writeText_eq_error (failed : writeText path text disk = .error fault after) :
    after = disk ∧ ¬ disk.Rewrites path text := by
  rw [writeText_apply] at failed
  cases located : disk.locate path with
  | error other =>
      simp only [located, EStateM.Result.error.injEq] at failed
      refine ⟨failed.2.symm, ?_⟩
      rintro ⟨place, found, -⟩
      cases located.symm.trans found
  | ok place =>
      by_cases directory : disk.node? place = some .directory
      · simp only [located, directory, if_true, EStateM.Result.error.injEq] at failed
        refine ⟨failed.2.symm, ?_⟩
        rintro ⟨other, found, noDirectory, -⟩
        cases located.symm.trans found
        exact noDirectory directory
      · simp [located, directory] at failed

theorem createFile_eq_ok (done : createFile path disk = .ok () after) :
    ∃ place, disk.locate path = .ok place ∧ disk.node? place = none ∧
      after = disk.put place (.file .empty) := by
  rw [createFile_apply] at done
  cases located : disk.locate path with
  | error fault => simp [located] at done
  | ok place =>
      cases stands : disk.node? place with
      | some node => simp [located, stands] at done
      | none =>
          simp only [located, stands, EStateM.Result.ok.injEq, true_and] at done
          exact ⟨place, rfl, stands, done.symm⟩

theorem createFile_eq_error (failed : createFile path disk = .error fault after) :
    after = disk ∧ ¬ disk.IsFree path := by
  rw [createFile_apply] at failed
  cases located : disk.locate path with
  | error other =>
      simp only [located, EStateM.Result.error.injEq] at failed
      refine ⟨failed.2.symm, ?_⟩
      rintro ⟨place, found, -⟩
      cases located.symm.trans found
  | ok place =>
      cases stands : disk.node? place with
      | none => simp [located, stands] at failed
      | some node =>
          simp only [located, stands, EStateM.Result.error.injEq] at failed
          refine ⟨failed.2.symm, ?_⟩
          rintro ⟨other, found, free⟩
          cases located.symm.trans found
          cases stands.symm.trans free

theorem removeFile_eq_ok (done : removeFile path disk = .ok () after) :
    ∃ place content, disk.locate path = .ok place ∧ disk.node? place = some (.file content) ∧
      after = disk.erase place := by
  rw [removeFile_apply] at done
  cases located : disk.locate path with
  | error fault => simp [located] at done
  | ok place =>
      rcases stands : disk.node? place with - | - | content
      · simp [located, stands] at done
      · simp [located, stands] at done
      · simp only [located, stands, EStateM.Result.ok.injEq, true_and] at done
        exact ⟨place, content, rfl, stands, done.symm⟩

theorem removeFile_eq_error (failed : removeFile path disk = .error fault after) :
    after = disk ∧ ¬ disk.isFile path := by
  rw [removeFile_apply] at failed
  rw [Disk.isFile_iff]
  cases located : disk.locate path with
  | error other =>
      simp only [located, EStateM.Result.error.injEq] at failed
      refine ⟨failed.2.symm, ?_⟩
      simp
  | ok place =>
      rcases stands : disk.node? place with - | - | content
      · simp only [located, stands, EStateM.Result.error.injEq] at failed
        exact ⟨failed.2.symm, by simp [stands]⟩
      · simp only [located, stands, EStateM.Result.error.injEq] at failed
        exact ⟨failed.2.symm, by simp [stands]⟩
      · simp [located, stands] at failed

/-- Removing things brings nothing to a place where nothing stands. -/
theorem removeDirectory_missing {gone : Location} (missing : disk.node? gone = none) :
    (left (removeDirectory path disk)).node? gone = none := by
  rw [removeDirectory_apply]
  split
  · exact missing
  · split
    · exact missing
    · exact missing
    · split
      · exact missing
      · split
        · exact Disk.node?_erase_of_missing missing _
        · exact missing

theorem removeDirectory_eq_error (failed : removeDirectory path disk = .error fault after) :
    after = disk := by
  rw [removeDirectory_apply] at failed
  repeat' split at failed
  all_goals cases failed
  all_goals rfl

theorem removeAll_missing {gone : Location} (missing : disk.node? gone = none) :
    (left (removeAll path disk)).node? gone = none := by
  rw [removeAll_apply]
  split
  · exact missing
  · split
    · exact missing
    · exact Disk.node?_erase_of_missing missing _
    · apply removeDirectory_missing
      rw [Disk.node?_clear, missing]
      split <;> rfl

theorem removeEach_missing {directory : Path} {gone : Location} (names : List String)
    (missing : disk.node? gone = none) :
    (left ((names.forM fun name => removeAll (directory.join name) : DiskM Unit) disk)).node? gone =
      none := by
  induction names generalizing disk with
  | nil => exact missing
  | cons name rest inductionHypothesis =>
      refine Work.left_bind (fun state : Disk => state.node? gone = none)
        (removeAll_missing missing) fun _ middle stillMissing => ?_
      exact inductionHypothesis stillMissing

/-- An entry that can be named does not stay whole when it is removed, even if that fails. -/
theorem removeAll_gone {directory : Path} {place : Location} {name : String}
    (leads : disk.Leads directory place) (proper : IsFileName name)
    (fits : directory.CanName name) (stands : disk.node? (place ++ [name]) ≠ none) :
    ∃ gone, disk.node? gone ≠ none ∧
      (left (removeAll (directory.join name) disk)).node? gone = none := by
  have located := (leads.locate_join proper).trans (if_pos fits)
  rcases node : disk.node? (place ++ [name]) with - | - | content
  · exact absurd node stands
  · by_contra whole
    push Not at whole
    have removed : removeAll (directory.join name) disk =
        removeDirectory (directory.join name) (disk.clear (place ++ [name])) := by
      simp [removeAll_apply, located, node]
    -- What is there behind the removal is there behind the clearing.
    have same : ∀ other, disk.node? other = (disk.clear (place ++ [name])).node? other := by
      intro other
      rw [Disk.node?_clear]
      split
      · rename_i inside
        by_contra stands
        apply whole other stands
        rw [removed]
        apply removeDirectory_missing
        rw [Disk.node?_clear, if_pos inside]
      · rfl
    have again : (disk.clear (place ++ [name])).locate (directory.join name) =
        .ok (place ++ [name]) := by
      have unmoved : disk.locate (directory.join name) =
          (disk.clear (place ++ [name])).locate (directory.join name) := by
        apply Disk.locate_congr _ same
        rfl
      rw [← unmoved, located]
    have still : (disk.clear (place ++ [name])).node? (place ++ [name]) = some .directory :=
      (same _).symm.trans node
    apply whole (place ++ [name]) stands
    rw [removed, removeDirectory_join proper again still (Disk.names_clear_self _ _)]
    change (Disk.erase _ _).node? _ = none
    rw [Disk.node?_erase _ (by simp), if_pos (by simp)]
  · refine ⟨place ++ [name], stands, ?_⟩
    simp only [removeAll_apply, located, node, left]
    rw [Disk.node?_erase _ (by simp)]
    simp

end DiskM

namespace StoreM

variable {Result : Type} {work : DiskM Result} {disk after : Disk}

theorem ofDisk_eq_ok {result : Result} (done : ofDisk work disk = .ok result after) :
    work disk = .ok result after := by
  cases outcome : work disk with
  | ok other middle =>
      cases (ofDisk_ok outcome).symm.trans done
      rfl
  | error fault middle => cases (ofDisk_error outcome).symm.trans done

theorem ofDisk_eq_error {error : Error} (failed : ofDisk work disk = .error error after) :
    ∃ fault, work disk = .error fault after := by
  cases outcome : work disk with
  | ok other middle => cases (ofDisk_ok outcome).symm.trans failed
  | error fault middle =>
      cases (ofDisk_error outcome).symm.trans failed
      exact ⟨fault, rfl⟩

theorem left_ofDisk (work : DiskM Result) (disk : Disk) :
    left (ofDisk work disk) = left (work disk) := by
  cases outcome : work disk with
  | ok result after => rw [ofDisk_ok outcome]; rfl
  | error fault after => rw [ofDisk_error outcome]; rfl

end StoreM

namespace Store

open StoreM (ofDisk)

variable {store : Store} {database name : String} {table : Table} {disk after : Disk}
  {work : DiskM Unit} {error : Error}

theorem unlessTaken_eq_ok {taken : Error} (done : unlessTaken work taken disk = .ok () after) :
    work disk = .ok () after := by
  unfold unlessTaken at done
  split at done <;> cases done
  assumption

theorem unlessTaken_eq_error {taken : Error}
    (failed : unlessTaken work taken disk = .error error after) :
    ∃ fault, work disk = .error fault after := by
  unfold unlessTaken at failed
  split at failed <;> cases failed
  · exact ⟨_, by assumption⟩
  · exact ⟨_, by assumption⟩

theorem writeCounter_eq_error {directory : Path}
    (failed : writeCounter directory table disk = .error error after) : after = disk := by
  obtain ⟨fault, stopped⟩ := StoreM.ofDisk_eq_error failed
  exact (DiskM.writeText_eq_error stopped).1

theorem saveTable_eq_error (failed : store.saveTable database table disk = .error error after) :
    (after = disk ∧
        ¬ disk.Rewrites (tablePath (store.directory database) table.name) table.render) ∨
      ∃ place, disk.locate (tablePath (store.directory database) table.name) = .ok place ∧
        disk.node? place ≠ some .directory ∧
        after = disk.put place (.file table.render.toUTF8) := by
  rcases Work.bind_eq_error_iff.mp failed with early | ⟨⟨⟩, middle, first, late⟩
  · obtain ⟨fault, stopped⟩ := StoreM.ofDisk_eq_error early
    exact .inl (DiskM.writeText_eq_error stopped)
  · obtain ⟨place, located, noDirectory, rfl⟩ := DiskM.writeText_eq_ok (StoreM.ofDisk_eq_ok first)
    exact .inr ⟨place, located, noDirectory, writeCounter_eq_error late⟩

/-- Where no path leads to its file, all work on a table fails and changes nothing. -/
theorem saveTable_unlocated {fault : Fault}
    (lost : disk.locate (tablePath (store.directory database) table.name) = .error fault) :
    store.saveTable database table disk = .error (.disk fault) disk := by
  refine Work.bind_error (StoreM.ofDisk_error ?_) _
  rw [DiskM.writeText_apply, lost]

theorem createTable_unlocated {fault : Fault}
    (lost : disk.locate (tablePath (store.directory database) table.name) = .error fault) :
    ∃ error, store.createTable database table disk = .error error disk := by
  have failed : DiskM.createFile (tablePath (store.directory database) table.name) disk =
      .error fault disk := by
    rw [DiskM.createFile_apply, lost]
  obtain ⟨error, refused⟩ : ∃ error, unlessTaken (DiskM.createFile
      (tablePath (store.directory database) table.name)) (.duplicateTable table.name) disk =
        .error error disk := by
    unfold unlessTaken
    rw [failed]
    cases fault <;> exact ⟨_, rfl⟩
  exact ⟨error, Work.bind_error refused _⟩

theorem deleteTable_unlocated {fault : Fault}
    (lost : disk.locate (tablePath (store.directory database) name) = .error fault) :
    store.deleteTable database name disk = .error (.disk fault) disk := by
  refine Work.bind_error (StoreM.ofDisk_error ?_) _
  rw [DiskM.removeFile_apply, lost]

/-- A failure to save a table comes behind the change of its table file. -/
theorem saveTable_same_iff (failed : store.saveTable database table disk = .error error after) :
    disk.Same after ↔
      ¬ disk.Rewrites (tablePath (store.directory database) table.name) table.render := by
  rcases saveTable_eq_error failed with ⟨rfl, kept⟩ | ⟨place, located, noDirectory, rfl⟩
  · exact iff_of_true (Disk.Same.refl _) kept
  · rw [Disk.same_put_iff noDirectory]
    constructor
    · rintro stored ⟨other, found, -, different⟩
      cases located.symm.trans found
      exact different stored
    · intro kept
      by_contra different
      exact kept ⟨place, located, noDirectory, different⟩

/-- A failure to make a table leaves its file behind if that was free. -/
theorem createTable_same_iff (failed : store.createTable database table disk = .error error after) :
    disk.Same after ↔ ¬ disk.IsFree (tablePath (store.directory database) table.name) := by
  rcases Work.bind_eq_error_iff.mp failed with early | ⟨⟨⟩, middle, first, late⟩
  · obtain ⟨fault, stopped⟩ := unlessTaken_eq_error early
    obtain ⟨rfl, taken⟩ := DiskM.createFile_eq_error stopped
    exact iff_of_true (Disk.Same.refl _) taken
  · obtain ⟨place, located, free, rfl⟩ := DiskM.createFile_eq_ok (unlessTaken_eq_ok first)
    refine iff_of_false (fun same => ?_) (not_not_intro ⟨place, located, free⟩)
    have noDirectory : disk.node? place ≠ some .directory := by simp [free]
    have below := Disk.ne_nil_of_node? noDirectory
    have made : (disk.put place (.file .empty)).node? place = some (.file .empty) := by
      rw [Disk.node?_put _ below, if_pos rfl]
    have missing := (same place).trans free
    rcases saveTable_eq_error late with ⟨rfl, -⟩ | ⟨other, -, noDirectory, rfl⟩
    · rw [made] at missing
      cases missing
    · rw [Disk.node?_put _ (Disk.ne_nil_of_node? noDirectory), made] at missing
      split at missing <;> cases missing

/-- A failure to remove a table comes behind the removal of its table file. -/
theorem deleteTable_same_iff (failed : store.deleteTable database name disk = .error error after) :
    disk.Same after ↔ ¬ disk.isFile (tablePath (store.directory database) name) := by
  rcases Work.bind_eq_error_iff.mp failed with early | ⟨⟨⟩, middle, first, late⟩
  · obtain ⟨fault, stopped⟩ := StoreM.ofDisk_eq_error early
    obtain ⟨rfl, missing⟩ := DiskM.removeFile_eq_error stopped
    exact iff_of_true (Disk.Same.refl _) missing
  · obtain ⟨place, content, located, file, rfl⟩ :=
      DiskM.removeFile_eq_ok (StoreM.ofDisk_eq_ok first)
    have isFile : disk.isFile (tablePath (store.directory database) name) :=
      Disk.isFile_iff.mpr ⟨place, content, located, file⟩
    refine iff_of_false (fun same => ?_) (not_not_intro isFile)
    have left : after = disk.erase place := by
      split at late <;> cases late
      rename_i stopped
      exact (DiskM.removeFile_eq_error stopped).1
    have noDirectory : disk.node? place ≠ some .directory := by simp [file]
    have below := Disk.ne_nil_of_node? noDirectory
    have gone := same place
    rw [left, Disk.node?_erase _ below] at gone
    simp [file] at gone

theorem createDatabase_same (failed : store.createDatabase name disk = .error error after) :
    disk.Same after := by
  obtain ⟨fault, stopped⟩ := unlessTaken_eq_error failed
  rw [DiskM.makeDirectory_eq_error stopped]
  exact Disk.Same.refl disk

/-- What is gone with the first entry stays gone while the database is removed. -/
theorem dropDatabase_gone {place gone : Location} {first : String} {rest : List String}
    (located : disk.locate (store.directory name) = .ok place)
    (directory : disk.node? place = some .directory) (listed : disk.names place = first :: rest)
    (behind : (left (DiskM.removeAll ((store.directory name).join first) disk)).node? gone = none) :
    (left (store.dropDatabase name disk)).node? gone = none := by
  rw [dropDatabase_apply located directory, listed]
  apply left_bind (fun state : Disk => state.node? gone = none)
  · rw [StoreM.left_ofDisk]
    apply left_bind (fun state : Disk => state.node? gone = none) behind
    intro _ middle missing
    exact DiskM.removeEach_missing rest missing
  · intro _ middle missing
    rw [StoreM.left_ofDisk]
    exact DiskM.removeDirectory_missing missing

theorem dropDatabase_long {place : Location} {first : String} {rest : List String}
    (leads : disk.Leads (store.directory name) place)
    (located : disk.locate (store.directory name) = .ok place)
    (listed : disk.names place = first :: rest) (proper : IsFileName first)
    (long : ¬ (store.directory name).CanName first) :
    store.dropDatabase name disk = .error (.disk .nameTooLong) disk := by
  have refused : DiskM.removeAll ((store.directory name).join first) disk =
      .error .nameTooLong disk := by
    rw [DiskM.removeAll_apply, leads.locate_join proper, if_neg long]
  rw [dropDatabase_apply located leads.directory, listed]
  apply Work.bind_error
  apply StoreM.ofDisk_error
  exact Work.bind_error refused _

/-- A failure to remove a database comes behind the removal of its first entry. -/
theorem dropDatabase_same_iff (named : disk.HasFileNames)
    (failed : store.dropDatabase name disk = .error error after) :
    disk.Same after ↔ ¬ disk.CanEmpty (store.directory name) := by
  by_cases isDirectory : disk.isDirectory (store.directory name)
  · obtain ⟨place, located, directory⟩ := Disk.isDirectory_iff.mp isDirectory
    have leads := Disk.Leads.of_locate located directory
    cases listed : disk.names place with
    | nil =>
        rw [dropDatabase_apply located directory, listed] at failed
        have removal : ofDisk (DiskM.removeDirectory (store.directory name)) disk =
            .error error after := failed
        obtain ⟨fault, stopped⟩ := StoreM.ofDisk_eq_error removal
        rw [DiskM.removeDirectory_eq_error stopped]
        apply iff_of_true (Disk.Same.refl _)
        rintro ⟨other, first, rest, found, -, names, -⟩
        cases located.symm.trans found
        cases listed.symm.trans names
    | cons first rest =>
        have stands : disk.node? (place ++ [first]) ≠ none :=
          Disk.mem_names_iff.mp (by simp [listed])
        have proper := named place first stands
        by_cases fits : (store.directory name).CanName first
        · obtain ⟨gone, before, behind⟩ := DiskM.removeAll_gone leads proper fits stands
          refine iff_of_false (fun same => ?_)
            (not_not_intro ⟨place, first, rest, located, directory, listed, fits⟩)
          have ended := dropDatabase_gone located directory listed behind
          rw [failed] at ended
          exact before ((same gone).symm.trans ended)
        · cases (dropDatabase_long leads located listed proper fits).symm.trans failed
          apply iff_of_true (Disk.Same.refl _)
          rintro ⟨other, another, others, found, -, names, able⟩
          cases located.symm.trans found
          cases listed.symm.trans names
          exact fits able
  · have refused : store.dropDatabase name disk = .error (.unknownDatabase name) disk :=
      dropDatabase_unknown (by simpa using isDirectory)
    cases refused.symm.trans failed
    apply iff_of_true (Disk.Same.refl _)
    rintro ⟨place, first, rest, located, directory, -⟩
    exact isDirectory (Disk.isDirectory_iff.mpr ⟨place, located, directory⟩)

end Store

end TextTables
