import TextTables.Proofs.Store.Shelf
import TextTables.Proofs.Store.Saving

/-!
# Making and dropping databases

The directory of a database is made where nothing stands. One that holds tables is dropped with
all files in it, whether their tables are known or not.
-/

namespace TextTables

open Location

variable {disk : Disk} {path directory : Path} {place top : Location} {shelf : Shelf}

namespace DiskM

/-- The entries of a directory that are files are removed one after the other. -/
theorem removeEach_ok {entries : List String} (leads : disk.LeadsStraight path place)
    (once : entries.Nodup)
    (each : ∀ name ∈ entries, IsFileName name ∧ path.CanName name ∧
      ∃ content, disk.node? (place ++ [name]) = some (.file content)) :
    ∃ after, (entries.forM fun name => removeAll (path.join name)) disk = .ok () after ∧
      after.LeadsStraight path place ∧ Disk.ChangedAt place disk after ∧
      ∀ name rest, after.node? (place ++ name :: rest) =
        if name ∈ entries then none else disk.node? (place ++ name :: rest) := by
  induction entries generalizing disk with
  | nil => exact ⟨disk, rfl, leads, Disk.ChangedAt.refl _ _, by simp⟩
  | cons entry others inductionHypothesis =>
      obtain ⟨notAgain, othersOnce⟩ := List.nodup_cons.mp once
      obtain ⟨proper, fits, content, file⟩ := each entry List.mem_cons_self
      have removed : removeAll (path.join entry) disk = .ok () (disk.erase (place ++ [entry])) := by
        simp [removeAll_apply, leads.locate_join proper, fits, file]
      have changed : Disk.ChangedAt (place ++ [entry]) disk (disk.erase (place ++ [entry])) :=
        Disk.ChangedAt.erase disk (by simp) (List.prefix_refl _)
      have kept : ∀ name rest, (disk.erase (place ++ [entry])).node? (place ++ name :: rest) =
          if name = entry then none else disk.node? (place ++ name :: rest) := by
        intro name rest
        rw [Disk.node?_erase _ (by simp)]
        by_cases same : name = entry
        · simp [same]
        · simp [same, Ne.symm same]
      have othersEach : ∀ name ∈ others, IsFileName name ∧ path.CanName name ∧
          ∃ content, (disk.erase (place ++ [entry])).node? (place ++ [name]) =
            some (.file content) := by
        intro name member
        have different : name ≠ entry := fun same => notAgain (same ▸ member)
        rw [kept, if_neg different]
        exact each name (List.mem_cons_of_mem _ member)
      obtain ⟨after, cleared, further, changes, nodes⟩ :=
        inductionHypothesis (leads.changed changed) othersOnce othersEach
      refine ⟨after, ?_, further, ?_, ?_⟩
      · rw [List.forM_eq_forM, List.forM_cons]
        exact (Work.bind_ok removed _).trans cleared
      · exact (changed.weaken (List.prefix_append _ _)).trans changes
      · intro name rest
        rw [nodes, kept]
        by_cases same : name = entry
        · simp [same]
        · simp [same]

end DiskM

namespace Store

open StoreM (ofDisk)

variable {store : Store} {name : String}

/-- The directory of a database is emptied entry by entry, and then removed. -/
theorem dropDatabase_apply (located : disk.locate (store.directory name) = .ok place)
    (directory : disk.node? place = some .directory) :
    store.dropDatabase name disk =
      (do
        ofDisk ((disk.names place).forM fun entry =>
          DiskM.removeAll ((store.directory name).join entry))
        ofDisk (DiskM.removeDirectory (store.directory name)) : StoreM Unit) disk := by
  have isDirectory : disk.isDirectory (store.directory name) := by
    simp [Disk.isDirectory, Disk.lookup?, located, directory]
  have listed : DiskM.listDirectory (store.directory name) disk = .ok (disk.names place) disk := by
    simp [DiskM.listDirectory_apply, located, directory]
  have cleared : DiskM.clearDirectory (store.directory name) disk =
      ((disk.names place).forM fun entry =>
        DiskM.removeAll ((store.directory name).join entry) : DiskM Unit) disk :=
    Work.bind_ok listed _
  have emptied : ofDisk (DiskM.clearDirectory (store.directory name)) disk =
      ofDisk ((disk.names place).forM fun entry =>
        DiskM.removeAll ((store.directory name).join entry)) disk := by
    simp only [ofDisk, EStateM.adaptExcept, cleared]
  apply (Work.bind_ok rfl _).trans
  simp only [isDirectory, if_true]
  simp only [bind, EStateM.bind, emptied]

/-- A directory that holds tables is emptied and removed. -/
theorem dropDatabase_ok (leads : disk.LeadsStraight (store.directory name) place)
    (proper : IsFileName name) (below : place ≠ [])
    (short : (store.directory name).size ≤ maxPathSize)
    (holds : disk.Holds (store.directory name) place shelf) (once : (disk.names place).Nodup) :
    ∃ after, store.dropDatabase name disk = .ok () after ∧ Disk.ChangedAt place disk after ∧
      ∀ rest, after.node? (place ++ rest) = none := by
  have each : ∀ entry ∈ disk.names place, IsFileName entry ∧
      (store.directory name).CanName entry ∧
        ∃ content, disk.node? (place ++ [entry]) = some (.file content) := by
    intro entry member
    exact holds.entry_isFile (Disk.mem_names_iff.mp member)
  obtain ⟨cleared, emptied, onward, changed, nodes⟩ := DiskM.removeEach_ok leads once each
  have nothing : ∀ entry rest, cleared.node? (place ++ entry :: rest) = none := by
    intro entry rest
    rw [nodes]
    split
    · rfl
    · rename_i absent
      cases rest with
      | nil => simpa [Disk.mem_names_iff] using absent
      | cons inner deeper => exact holds.flat entry inner deeper
  have noNames : cleared.names place = [] := by
    refine List.eq_nil_iff_forall_not_mem.mpr fun entry member => ?_
    exact Disk.mem_names_iff.mp member (nothing entry [])
  have removed : DiskM.removeDirectory (store.directory name) cleared =
      .ok () (cleared.erase place) :=
    DiskM.removeDirectory_join proper (onward.locate short) onward.directory noNames
  have erased := Disk.ChangedAt.erase cleared below (List.prefix_refl place)
  refine ⟨cleared.erase place, ?_, changed.trans erased, ?_⟩
  · rw [dropDatabase_apply (leads.locate short) leads.directory]
    exact (Work.bind_ok (StoreM.ofDisk_ok emptied) _).trans (StoreM.ofDisk_ok removed)
  · intro rest
    rw [Disk.node?_erase _ below]
    simp

theorem dropDatabase_unknown (missing : disk.isDirectory (store.directory name) = false) :
    store.dropDatabase name disk = .error (.unknownDatabase name) disk := by
  apply (Work.bind_ok rfl _).trans
  simp only [missing]
  rfl

/-- A directory is made under a name that is free and not too long. -/
theorem createDatabase_apply (leads : disk.Leads store.root top) (proper : IsFileName name) :
    store.createDatabase name disk =
      if store.root.CanName name then
        if disk.node? (top ++ [name]) = none then .ok () (disk.put (top ++ [name]) .directory)
        else .error (.duplicateDatabase name) disk
      else .error (.disk .nameTooLong) disk := by
  have located : disk.locateNew (store.root.join name) =
      if store.root.CanName name then .ok (top ++ [name]) else .error .nameTooLong := by
    rw [← leads.locate_join proper, Disk.locateNew, Path.withoutEnd_join proper, Disk.locate]
  by_cases fits : store.root.CanName name
  · cases stands : disk.node? (top ++ [name]) with
    | none =>
        simp [createDatabase, unlessTaken, directory, DiskM.makeDirectory_apply, located, fits,
          stands]
    | some node =>
        simp [createDatabase, unlessTaken, directory, DiskM.makeDirectory_apply, located, fits,
          stands]
  · simp [createDatabase, unlessTaken, directory, DiskM.makeDirectory_apply, located, fits]

end Store

end TextTables
