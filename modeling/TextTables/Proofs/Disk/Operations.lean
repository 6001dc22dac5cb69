import TextTables.Proofs.Disk.Following
import TextTables.Proofs.Work

/-!
# What the operations on the disk do

Each operation follows its path, looks at what stands there, and then changes that one place or
nothing. One that fails has changed nothing.
-/

namespace TextTables

theorem Disk.locateNew_join {disk : Disk} {path : Path} {name : String}
    (proper : IsFileName name) : disk.locateNew (path.join name) = disk.locate (path.join name) := by
  rw [locateNew, locate, Path.withoutEnd_join proper]

namespace DiskM

variable {Result : Type}

/-- Work that starts at the place of a path, and at what stands there. -/
theorem located_apply (path : Path) (disk : Disk) (next : Location → Option Node → DiskM Result) :
    (do let place ← locate path; next place (← node? place) : DiskM Result) disk =
      match disk.locate path with
      | .error fault => .error fault disk
      | .ok place => next place (disk.node? place) disk := by
  cases located : disk.locate path with
  | error fault => exact Work.bind_error (by simp [locate, located]) _
  | ok place =>
      have found : locate path disk = .ok place disk := by simp [locate, located]
      exact (Work.bind_ok found _).trans (Work.bind_ok rfl _)

theorem makeDirectory_apply (path : Path) (disk : Disk) :
    makeDirectory path disk =
      match disk.locateNew path with
      | .error fault => .error fault disk
      | .ok place =>
          match disk.node? place with
          | some _ => .error .alreadyExists disk
          | none => .ok () (disk.put place .directory) := by
  cases located : disk.locateNew path with
  | error fault => exact Work.bind_error (by simp [locateNew, located]) _
  | ok place =>
      have found : locateNew path disk = .ok place disk := by simp [locateNew, located]
      refine (Work.bind_ok found _).trans ((Work.bind_ok rfl _).trans ?_)
      dsimp only
      cases disk.node? place <;> rfl

theorem createFile_apply (path : Path) (disk : Disk) :
    createFile path disk =
      match disk.locate path with
      | .error fault => .error fault disk
      | .ok place =>
          match disk.node? place with
          | some _ => .error .alreadyExists disk
          | none => .ok () (disk.put place (.file .empty)) := by
  apply (located_apply path disk _).trans
  cases disk.locate path with
  | error fault => rfl
  | ok place => dsimp only; cases disk.node? place <;> rfl

theorem readText_apply (path : Path) (disk : Disk) :
    readText path disk =
      match disk.locate path with
      | .error fault => .error fault disk
      | .ok place =>
          match disk.node? place with
          | none => .error .notFound disk
          | some .directory => .error .isDirectory disk
          | some (.file content) =>
              match String.fromUTF8? content with
              | some text => .ok text disk
              | none => .error .notText disk := by
  apply (located_apply path disk _).trans
  cases disk.locate path with
  | error fault => rfl
  | ok place =>
      dsimp only
      rcases disk.node? place with - | - | content
      · rfl
      · rfl
      · dsimp only
        cases String.fromUTF8? content <;> rfl

/-- Reading changes nothing. -/
theorem readText_cases (path : Path) (disk : Disk) :
    (∃ text, readText path disk = .ok text disk) ∨
      ∃ fault, readText path disk = .error fault disk := by
  rw [readText_apply]
  cases disk.locate path with
  | error fault => exact .inr ⟨fault, rfl⟩
  | ok place =>
      dsimp only
      rcases disk.node? place with - | - | content
      · exact .inr ⟨.notFound, rfl⟩
      · exact .inr ⟨.isDirectory, rfl⟩
      · dsimp only
        cases String.fromUTF8? content with
        | none => exact .inr ⟨.notText, rfl⟩
        | some text => exact .inl ⟨text, rfl⟩

theorem writeText_apply (path : Path) (text : String) (disk : Disk) :
    writeText path text disk =
      match disk.locate path with
      | .error fault => .error fault disk
      | .ok place =>
          if disk.node? place = some .directory then .error .isDirectory disk
          else .ok () (disk.put place (.file text.toUTF8)) := by
  apply (located_apply path disk _).trans
  cases disk.locate path with
  | error fault => rfl
  | ok place =>
      dsimp only
      rcases disk.node? place with - | - | content <;> rfl

theorem removeFile_apply (path : Path) (disk : Disk) :
    removeFile path disk =
      match disk.locate path with
      | .error fault => .error fault disk
      | .ok place =>
          match disk.node? place with
          | none => .error .notFound disk
          | some .directory => .error .isDirectory disk
          | some (.file _) => .ok () (disk.erase place) := by
  apply (located_apply path disk _).trans
  cases disk.locate path with
  | error fault => rfl
  | ok place =>
      dsimp only
      rcases disk.node? place with - | - | content <;> rfl

theorem listDirectory_apply (path : Path) (disk : Disk) :
    listDirectory path disk =
      match disk.locate path with
      | .error fault => .error fault disk
      | .ok place =>
          match disk.node? place with
          | none => .error .notFound disk
          | some (.file _) => .error .notDirectory disk
          | some .directory => .ok (disk.names place) disk := by
  apply (located_apply path disk _).trans
  cases disk.locate path with
  | error fault => rfl
  | ok place =>
      dsimp only
      rcases disk.node? place with - | - | content <;> rfl

theorem removeDirectory_apply (path : Path) (disk : Disk) :
    removeDirectory path disk =
      match disk.locate path with
      | .error fault => .error fault disk
      | .ok place =>
          match disk.node? place with
          | none => .error .notFound disk
          | some (.file _) => .error .notDirectory disk
          | some .directory =>
              if path.withoutEnd.segments.getLast? = some "." then .error .invalidArgument disk
              else if disk.names place = [] then .ok () (disk.erase place)
              else .error .notEmpty disk := by
  apply (located_apply path disk _).trans
  cases disk.locate path with
  | error fault => rfl
  | ok place =>
      dsimp only
      rcases disk.node? place with - | - | content
      · rfl
      · dsimp only
        by_cases point : path.withoutEnd.segments.getLast? = some "."
        · simp only [point, if_true]
          rfl
        · simp only [point, if_false]
          refine (Work.bind_ok rfl _).trans ((Work.bind_ok rfl _).trans ?_)
          cases disk.names place with
          | nil => rfl
          | cons name others => rfl
      · rfl

/-- An empty directory is removed under the name that it has in another one. -/
theorem removeDirectory_join {disk : Disk} {path : Path} {place : Location} {name : String}
    (proper : IsFileName name) (located : disk.locate (path.join name) = .ok place)
    (directory : disk.node? place = some .directory) (empty : disk.names place = []) :
    removeDirectory (path.join name) disk = .ok () (disk.erase place) := by
  have noPoint : (path.join name).withoutEnd.segments.getLast? ≠ some "." := by
    rw [Path.withoutEnd_join proper, Path.getLast?_join proper]
    simpa using proper.not_point
  rw [removeDirectory_apply, located]
  simp only [directory, noPoint, if_false, empty, if_true]

/-- Behind a directory that is emptied, its path is followed once more. -/
theorem removeAll_apply (path : Path) (disk : Disk) :
    removeAll path disk =
      match disk.locate path with
      | .error fault => .error fault disk
      | .ok place =>
          match disk.node? place with
          | none => .error .notFound disk
          | some (.file _) => .ok () (disk.erase place)
          | some .directory => removeDirectory path (disk.clear place) := by
  apply (located_apply path disk _).trans
  cases disk.locate path with
  | error fault => rfl
  | ok place =>
      dsimp only
      rcases disk.node? place with - | - | content
      · rfl
      · exact Work.bind_ok rfl _
      · rfl

end DiskM

end TextTables
