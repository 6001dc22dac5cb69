import TextTables.Proofs.Store.Confinement

/-!
# Databases that are removed whole

A root can lead through directories of its own databases. They are older than all tables, so that
they are the first ones to go when a database is removed, and without one of them the root leads
nowhere any more. All other entries were named once and can be named again. So a database is removed
whole, or not at all, as long as the root still leads to its end afterwards.
-/

namespace TextTables

open Location Work

namespace Disk

/-- In the directories below the top, nothing is listed twice. What lies on the way of the root
comes first, and all that comes behind can be named. -/
structure Clearable (disk : Disk) (root : Path) (top : Location) : Prop where
  tidy : disk.Tidy top
  listed : ∀ database, ∃ ways files, disk.names (top ++ [database]) = ways ++ files ∧
    (∀ name ∈ ways, top ++ [database] ++ [name] ∈ trail (disk.start root) root.segments) ∧
    ∀ name ∈ files, (root.join database).CanName name

variable {disk other before after : Disk} {root path : Path} {top place reached : Location}
  {database file entry : String}

/-- Where a path leads, it has passed directories. -/
theorem Leads.directory_of_mem_trail (leads : disk.Leads path place) {passed : Location}
    (member : passed ∈ trail (disk.start path) path.segments) :
    disk.node? passed = some .directory := by
  have ends := leads.directory
  have followed := leads.reached
  generalize disk.start path = start at member followed
  generalize path.segments = segments at member followed
  induction segments generalizing start with
  | nil =>
      cases followed
      rwa [List.mem_singleton.mp member]
  | cons segment rest inductionHypothesis =>
      obtain ⟨directory, -, further⟩ := follow_cons_eq_ok followed
      rcases List.mem_cons.mp member with rfl | later
      · exact directory
      · exact inductionHypothesis _ later further

/-- A path leads nowhere any more once a place on its way is gone. -/
theorem not_leads_erase (passed : place ∈ trail (disk.start path) path.segments)
    (below : place ≠ []) : ¬ (disk.erase place).Leads path reached := by
  intro leads
  have directory := leads.directory_of_mem_trail passed
  rw [node?_erase _ below, if_pos (by simp)] at directory
  cases directory

/-- A path that leads somewhere after something was taken away has led there before. -/
theorem ReducedAt.leads (reduced : ReducedAt reached before after)
    (leads : after.Leads path place) : before.Leads path place := by
  have keeps : KeepsDirectories after before := by
    refine ⟨reduced.home.symm, fun passed directory => ?_⟩
    rw [← reduced.kept passed (by simp [directory]), directory]
  exact keeps.leads leads

namespace Clearable

theorem filtered (clearable : disk.Clearable root top) (home : other.home = disk.home)
    (filtered : ∀ place, ∃ test : String → Bool, other.names place =
      (disk.names place).filter test) : other.Clearable root top := by
  refine ⟨fun place inside => ?_, fun database => ?_⟩
  · obtain ⟨test, names⟩ := filtered place
    rw [names]
    exact (clearable.tidy place inside).filter test
  · obtain ⟨test, names⟩ := filtered (top ++ [database])
    obtain ⟨ways, files, listed, passed, fit⟩ := clearable.listed database
    refine ⟨ways.filter test, files.filter test, ?_, fun name member => ?_, fun name member => ?_⟩
    · rw [names, listed, List.filter_append]
    · rw [start_congr home]
      exact passed name (List.mem_of_mem_filter member)
    · exact fit name (List.mem_of_mem_filter member)

theorem erase (clearable : disk.Clearable root top) (place : Location) :
    (disk.erase place).Clearable root top :=
  clearable.filtered rfl fun other => ⟨_, names_erase disk place other⟩

theorem clear (clearable : disk.Clearable root top) (place : Location) :
    (disk.clear place).Clearable root top :=
  clearable.filtered rfl fun other => ⟨_, names_clear disk place other⟩

theorem putFile (clearable : disk.Clearable root top) (fits : (root.join database).CanName file)
    (node : Node) : (disk.put (top ++ [database] ++ [file]) node).Clearable root top := by
  refine ⟨clearable.tidy.put _ _ _, fun another => ?_⟩
  obtain ⟨ways, files, listed, passed, fit⟩ := clearable.listed another
  rw [start_congr (home_put _ _ _)]
  cases stands : disk.node? (top ++ [database] ++ [file]) with
  | some present =>
      rw [names_put_old (by rw [stands]; exact Option.some_ne_none _) (by simp)]
      exact ⟨ways, files, listed, passed, fit⟩
  | none =>
      rw [names_put_new stands]
      split
      · rename_i here
        obtain rfl := List.singleton_inj.mp (List.append_cancel_left here)
        refine ⟨ways, files ++ [file], by rw [listed, List.append_assoc], passed, ?_⟩
        intro name member
        rcases List.mem_append.mp member with old | new
        · exact fit name old
        · exact List.mem_singleton.mp new ▸ fits
      · exact ⟨ways, files, listed, passed, fit⟩

theorem putDirectory (clearable : disk.Clearable root top) (name : String) (node : Node) :
    (disk.put (top ++ [name]) node).Clearable root top := by
  refine ⟨clearable.tidy.put _ _ _, fun database => ?_⟩
  have same : (disk.put (top ++ [name]) node).names (top ++ [database]) =
      disk.names (top ++ [database]) := by
    cases stands : disk.node? (top ++ [name]) with
    | some present => rw [names_put_old (by simp [stands]) (by simp)]
    | none => rw [names_put_new stands, if_neg (by simp)]
  rw [same, start_congr (home_put _ _ _)]
  exact clearable.listed database

end Clearable

end Disk

namespace DiskM

variable {disk : Disk} {root path : Path} {top : Location} {database entry file text table : String}

theorem writeText_clearable (orderly : disk.Orderly root top) (clearable : disk.Clearable root top)
    (named : IsName database) (proper : IsFileName file) (text : String) :
    (left (writeText ((root.join database).join file) text disk)).Clearable root top := by
  cases outcome : writeText ((root.join database).join file) text disk with
  | ok result after =>
      obtain ⟨place, located, -, rfl⟩ := writeText_eq_ok outcome
      obtain ⟨-, fits, rfl⟩ := orderly.leads_of_locate named proper located
      exact clearable.putFile fits _
  | error fault after =>
      rw [(writeText_eq_error outcome).1]
      exact clearable

theorem createFile_clearable (orderly : disk.Orderly root top)
    (clearable : disk.Clearable root top) (named : IsName database) (proper : IsFileName file) :
    (left (createFile ((root.join database).join file) disk)).Clearable root top := by
  cases outcome : createFile ((root.join database).join file) disk with
  | ok result after =>
      obtain ⟨place, located, -, rfl⟩ := createFile_eq_ok outcome
      obtain ⟨-, fits, rfl⟩ := orderly.leads_of_locate named proper located
      exact clearable.putFile fits _
  | error fault after =>
      rw [(createFile_eq_error outcome).1]
      exact clearable

theorem removeFile_clearable (clearable : disk.Clearable root top) (path : Path) :
    (left (removeFile path disk)).Clearable root top := by
  cases outcome : removeFile path disk with
  | ok result after =>
      obtain ⟨place, content, -, -, rfl⟩ := removeFile_eq_ok outcome
      exact clearable.erase place
  | error fault after =>
      rw [(removeFile_eq_error outcome).1]
      exact clearable

theorem removeDirectory_clearable (clearable : disk.Clearable root top) (path : Path) :
    (left (removeDirectory path disk)).Clearable root top := by
  rw [removeDirectory_apply]
  repeat' split
  all_goals first | exact clearable | exact clearable.erase _

theorem removeAll_clearable (clearable : disk.Clearable root top) (path : Path) :
    (left (removeAll path disk)).Clearable root top := by
  rw [removeAll_apply]
  repeat' split
  all_goals first
    | exact clearable
    | exact clearable.erase _
    | exact removeDirectory_clearable (clearable.clear _) path

/-- An entry that can be named is removed, unless the root is lost with it. -/
theorem removeAll_entry (orderly : disk.Orderly root top) (leads : disk.Leads root top)
    (named : IsName database) (short : database.utf8ByteSize ≤ maxNameSize)
    (proper : IsFileName entry) (fits : (root.join database).CanName entry)
    (stands : disk.node? (top ++ [database] ++ [entry]) ≠ none)
    (onward : (left (removeAll ((root.join database).join entry) disk)).Leads root top) :
    removeAll ((root.join database).join entry) disk =
      .ok () (disk.erase (top ++ [database] ++ [entry])) := by
  have reaches : ∀ {disk : Disk}, disk.Orderly root top → disk.Leads root top →
      disk.node? (top ++ [database] ++ [entry]) ≠ none →
      disk.locate ((root.join database).join entry) = .ok (top ++ [database] ++ [entry]) := by
    intro disk orderly leads stands
    exact ((orderly.leads_of_stands leads named short stands).locate_join proper).trans
      (if_pos fits)
  have located := reaches orderly leads stands
  rcases node : disk.node? (top ++ [database] ++ [entry]) with - | - | content
  · exact absurd node stands
  · have emptied : removeAll ((root.join database).join entry) disk =
        removeDirectory ((root.join database).join entry)
          (disk.clear (top ++ [database] ++ [entry])) := by
      simp only [removeAll_apply, located, node]
    have cleared := orderly.clear (top ++ [database] ++ [entry])
    have still : (disk.clear (top ++ [database] ++ [entry])).node?
        (top ++ [database] ++ [entry]) = some .directory := by
      rw [Disk.node?_clear, if_neg (by simp), node]
    -- The root leads on from the emptied directory if it does without it.
    rw [emptied] at onward ⊢
    have cut := removeDirectory_cut cleared fun place located => by
      obtain ⟨-, -, rfl⟩ := cleared.leads_of_locate named proper located
      exact List.prefix_append _ _
    have again := reaches cleared (cut.reduced.leads onward)
      (by rw [still]; exact Option.some_ne_none _)
    rw [removeDirectory_join proper again still (Disk.names_clear_self _ _), Disk.erase_clear]
  · simp only [removeAll_apply, located, node]

theorem removeEach_cons (path : Path) (entry : String) (rest : List String) (disk : Disk) :
    ((entry :: rest).forM fun name => removeAll (path.join name) : DiskM Unit) disk =
      (removeAll (path.join entry) >>= fun _ => rest.forM fun name => removeAll (path.join name))
        disk := by
  rw [List.forM_eq_forM, List.forM_cons]

/-- What the removal of the first entry has taken away, that of the others does not bring back. -/
theorem removeEach_cons_cut {rest : List String} (orderly : disk.Orderly root top)
    (named : IsName database) (proper : ∀ name ∈ entry :: rest, IsFileName name) :
    Disk.Cut root top database (left (removeAll ((root.join database).join entry) disk))
      (left (((entry :: rest).forM fun name => removeAll ((root.join database).join name) :
        DiskM Unit) disk)) := by
  obtain ⟨here, others⟩ := List.forall_mem_cons.mp proper
  have first := (removeAll_cut orderly named here).orderly
  rw [removeEach_cons]
  exact left_bind _ (.refl first) fun _ middle cut =>
    cut.trans (removeEach_cut cut.orderly named others)

/-- Entries that can be named are removed one after the other, unless the root is lost with one of
them. -/
theorem removeEach_whole {entries : List String} (orderly : disk.Orderly root top)
    (leads : disk.Leads root top) (named : IsName database)
    (short : database.utf8ByteSize ≤ maxNameSize) (once : entries.Nodup)
    (directory : disk.node? (top ++ [database]) = some .directory)
    (listed : disk.names (top ++ [database]) = entries)
    (fit : ∀ name ∈ entries, (root.join database).CanName name)
    (onward : (left ((entries.forM fun name => removeAll ((root.join database).join name) :
      DiskM Unit) disk)).Leads root top) :
    ∃ after, (entries.forM fun name => removeAll ((root.join database).join name) : DiskM Unit)
        disk = .ok () after ∧
      after.node? (top ++ [database]) = some .directory ∧
      after.names (top ++ [database]) = [] := by
  induction entries generalizing disk with
  | nil => exact ⟨disk, rfl, directory, listed⟩
  | cons entry rest inductionHypothesis =>
      obtain ⟨notAgain, restOnce⟩ := List.nodup_cons.mp once
      have proper : ∀ name ∈ entry :: rest, IsFileName name :=
        fun name member => orderly.isFileName_of_mem_names (listed ▸ member)
      have stands : disk.node? (top ++ [database] ++ [entry]) ≠ none :=
        Disk.mem_names_iff.mp (listed ▸ List.mem_cons_self)
      have middleLeads := (removeEach_cons_cut orderly named proper).reduced.leads onward
      have removed := removeAll_entry orderly leads named short (proper entry List.mem_cons_self)
        (fit entry List.mem_cons_self) stands middleLeads
      rw [removed] at middleLeads
      have kept : (disk.erase (top ++ [database] ++ [entry])).node? (top ++ [database]) =
          some .directory := by
        rw [Disk.node?_erase _ (by simp), if_neg, directory]
        rw [List.isPrefixOf_iff_prefix]
        exact not_prefix_of_concat _ entry
      have remaining : (disk.erase (top ++ [database] ++ [entry])).names (top ++ [database]) =
          rest := by
        rw [Disk.names_erase_entry, listed, List.filter_cons_of_neg (by simp), List.filter_eq_self]
        intro name member
        have other : name ≠ entry := fun same => notAgain (same ▸ member)
        simpa using other
      rw [removeEach_cons, Work.bind_ok removed] at onward ⊢
      exact inductionHypothesis (orderly.erase (by simp)) middleLeads restOnce kept remaining
        (fun name member => fit name (.tail _ member)) onward

end DiskM

namespace Store

open Disk

open StoreM (ofDisk)

variable {store : Store} {top : Location} {name : String} {disk after : Disk} {error : Error}

/-- What the removal of the entries has taken away, that of the directory does not bring back. -/
theorem dropDatabase_cut_entries (orderly : disk.Orderly store.root top) (named : IsName name)
    (located : disk.locate (store.directory name) = .ok (top ++ [name]))
    (directory : disk.node? (top ++ [name]) = some .directory) :
    Cut store.root top name
      (left ((disk.names (top ++ [name])).forM (fun entry =>
        DiskM.removeAll ((store.directory name).join entry)) disk))
      (left (store.dropDatabase name disk)) := by
  have first := DiskM.removeEach_cut orderly named
    (fun entry (member : entry ∈ disk.names (top ++ [name])) =>
      orderly.isFileName_of_mem_names member)
  rw [dropDatabase_apply located directory]
  refine left_bind _ ?_ fun _ middle cut => ?_
  · rw [StoreM.left_ofDisk]
    exact .refl first.orderly
  · rw [StoreM.left_ofDisk]
    refine cut.trans (DiskM.removeDirectory_cut cut.orderly fun place located => ?_)
    rw [cut.orderly.eq_of_locate named located]

/-- A database that is not removed stays as it was, or the root is lost. -/
theorem dropDatabase_whole (orderly : disk.Orderly store.root top)
    (clearable : disk.Clearable store.root top) (named : IsName name)
    (failed : store.dropDatabase name disk = .error error after)
    (onward : after.Leads store.root top) : after = disk := by
  by_cases isDirectory : disk.isDirectory (store.directory name)
  · obtain ⟨place, located, directory⟩ := isDirectory_iff.mp isDirectory
    obtain ⟨rootLeads, fits, -⟩ := leads_of_locate_join named.isFileName located
    obtain rfl := orderly.eq_of_locate named located
    rw [orderly.ends] at rootLeads
    have leads := Leads.of_locate located directory
    have proper : ∀ entry ∈ disk.names (top ++ [name]), IsFileName entry :=
      fun entry => orderly.isFileName_of_mem_names
    have cut := dropDatabase_cut_entries orderly named located directory
    rw [failed] at cut
    have emptiedLeads := cut.reduced.leads onward
    obtain ⟨ways, files, listed, passed, fit⟩ := clearable.listed name
    cases ways with
    | nil =>
        obtain ⟨middle, removed, still, empty⟩ := DiskM.removeEach_whole orderly rootLeads named
          fits.1 (clearable.tidy _ (List.prefix_append _ _)) directory rfl (by rwa [listed])
          emptiedLeads
        have middleLeads : middle.Leads store.root top := by
          simp only [Store.directory] at emptiedLeads
          rwa [removed] at emptiedLeads
        have reached := (middleLeads.join named.isFileName fits.1 still).locate fits.2
        have last := DiskM.removeDirectory_join named.isFileName reached still empty
        have dropped := (dropDatabase_apply located directory).trans
          ((Work.bind_ok (StoreM.ofDisk_ok removed) _).trans (StoreM.ofDisk_ok last))
        cases dropped.symm.trans failed
    | cons first others =>
        rw [List.cons_append] at listed
        have member : first ∈ disk.names (top ++ [name]) := listed ▸ List.mem_cons_self
        by_cases able : (store.directory name).CanName first
        · -- The root still leads through the entry, which has been removed.
          have firstCut := DiskM.removeEach_cons_cut orderly named (listed ▸ proper)
          rw [listed] at emptiedLeads
          have stillLeads := firstCut.reduced.leads emptiedLeads
          have removed := DiskM.removeAll_entry orderly rootLeads named fits.1
            (proper first member) able (mem_names_iff.mp member) stillLeads
          rw [removed] at stillLeads
          exact absurd stillLeads (not_leads_erase (passed first List.mem_cons_self) (by simp))
        · have refused := dropDatabase_long leads located listed (proper first member) able
          cases refused.symm.trans failed
          rfl
  · have refused : store.dropDatabase name disk = .error (.unknownDatabase name) disk :=
      dropDatabase_unknown (by simpa using isDirectory)
    cases refused.symm.trans failed
    rfl

end Store

end TextTables
