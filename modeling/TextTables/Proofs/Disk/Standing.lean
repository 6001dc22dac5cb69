import TextTables.Proofs.Disk.Following

/-!
# Directories that stay

A path leads through directories, and where each of them stays the path leads where it led. What
becomes of files, and what is new, makes no difference.
-/

namespace TextTables

open Location

namespace Disk

/-- Every directory is still one. -/
structure KeepsDirectories (before after : Disk) : Prop where
  home : after.home = before.home
  kept : ∀ place, before.node? place = some .directory → after.node? place = some .directory

theorem home_put (disk : Disk) (place : Location) (node : Node) :
    (disk.put place node).home = disk.home := by
  unfold put
  split <;> rfl

namespace KeepsDirectories

variable {before middle after : Disk} {path : Path} {place reached : Location}

theorem refl (disk : Disk) : KeepsDirectories disk disk :=
  ⟨rfl, fun _ directory => directory⟩

theorem trans (first : KeepsDirectories before middle) (second : KeepsDirectories middle after) :
    KeepsDirectories before after :=
  ⟨second.home.trans first.home,
    fun place directory => second.kept place (first.kept place directory)⟩

/-- Something new, or something else in the place of a file, leaves all directories. -/
theorem put {disk : Disk} (below : place ≠ []) (noDirectory : disk.node? place ≠ some .directory)
    (node : Node) : KeepsDirectories disk (disk.put place node) := by
  refine ⟨home_put _ _ _, fun other directory => ?_⟩
  rw [node?_put _ below, if_neg]
  · exact directory
  · rintro rfl
    exact noDirectory directory

/-- A file that is put somewhere is no directory that was not there before. -/
theorem of_putFile {disk : Disk} (below : place ≠ []) (content : ByteArray) :
    KeepsDirectories (disk.put place (.file content)) disk := by
  refine ⟨(home_put _ _ _).symm, fun other directory => ?_⟩
  rw [node?_put _ below] at directory
  split at directory
  · cases directory
  · exact directory

theorem follow (keeps : KeepsDirectories before after) {segments : List String}
    (followed : before.follow place segments = .ok reached) :
    after.follow place segments = .ok reached := by
  induction segments generalizing place with
  | nil => exact followed
  | cons segment rest inductionHypothesis =>
      obtain ⟨directory, short, further⟩ := follow_cons_eq_ok followed
      rw [follow_cons_directory (keeps.kept place directory) rest short]
      exact inductionHypothesis further

theorem start (keeps : KeepsDirectories before after) (path : Path) :
    after.start path = before.start path := by
  simp [Disk.start, keeps.home]

theorem locate (keeps : KeepsDirectories before after) (located : before.locate path = .ok place) :
    after.locate path = .ok place := by
  unfold Disk.locate at located ⊢
  cases fault : path.fault? with
  | some fault => simp [fault] at located
  | none =>
      simp only [fault] at located
      rw [keeps.start]
      exact keeps.follow located

theorem leads (keeps : KeepsDirectories before after) (leads : before.Leads path place) :
    after.Leads path place where
  zeroFree := leads.zeroFree
  reached := by
    rw [keeps.start]
    exact keeps.follow leads.reached
  directory := keeps.kept place leads.directory

end KeepsDirectories

end Disk

end TextTables
