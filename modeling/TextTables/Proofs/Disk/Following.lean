import Mathlib
import TextTables.Disk.Work

/-!
# Following paths

Where a path leads depends only on what stands on the way. A directory to which a path leads
names its entries by that path and one more segment, as long as the lengths allow it.
-/

namespace TextTables

namespace Location

/-- The place that one segment leads to. -/
def enter (place : Location) (segment : String) : Location :=
  if segment = "" ∨ segment = "." then place
  else if segment = ".." then place.dropLast
  else place ++ [segment]

/-- The place that segments lead to. -/
def reach (place : Location) (segments : List String) : Location :=
  segments.foldl enter place

/-- The places that segments lead through, from the start to the end. -/
def trail (place : Location) : List String → List Location
  | [] => [place]
  | segment :: rest => place :: trail (enter place segment) rest

@[simp]
theorem reach_nil (place : Location) : reach place [] = place := rfl

@[simp]
theorem reach_cons (place : Location) (segment : String) (rest : List String) :
    reach place (segment :: rest) = reach (enter place segment) rest := rfl

theorem reach_mem_trail (place : Location) (segments : List String) :
    reach place segments ∈ trail place segments := by
  induction segments generalizing place with
  | nil => simp [trail]
  | cons segment rest inductionHypothesis =>
      exact List.mem_cons_of_mem _ (inductionHypothesis _)

/-- The trail of some of the segments is part of the whole trail. -/
theorem mem_trail_append {place other : Location} {first : List String} (second : List String)
    (passed : other ∈ trail place first) : other ∈ trail place (first ++ second) := by
  induction first generalizing place with
  | nil =>
      have here : other = place := by simpa [trail] using passed
      subst here
      cases second <;> simp [trail]
  | cons segment rest inductionHypothesis =>
      rcases List.mem_cons.mp passed with here | later
      · exact here ▸ List.mem_cons_self
      · exact List.mem_cons_of_mem _ (inductionHypothesis later)

/-- One more segment leads the trail to one more place. -/
theorem mem_trail_concat {place other : Location} {segments : List String} {segment : String}
    (passed : other ∈ trail place (segments ++ [segment])) :
    other ∈ trail place segments ∨ other = enter (reach place segments) segment := by
  induction segments generalizing place with
  | nil => simpa [trail] using passed
  | cons first rest inductionHypothesis =>
      rcases List.mem_cons.mp passed with here | later
      · exact .inl (here ▸ List.mem_cons_self)
      · rcases inductionHypothesis later with before | last
        · exact .inl (List.mem_cons_of_mem _ before)
        · exact .inr last

end Location

namespace Disk

open Location

/-- One segment at a time: a place that is not a directory leads nowhere. -/
theorem follow_cons (disk : Disk) (place : Location) (segment : String) (rest : List String) :
    disk.follow place (segment :: rest) =
      match disk.node? place with
      | none => .error .notFound
      | some (.file _) => .error .notDirectory
      | some .directory =>
          if maxNameSize < segment.utf8ByteSize then .error .nameTooLong
          else disk.follow (enter place segment) rest := by
  rw [follow]
  cases stands : disk.node? place with
  | none => rfl
  | some node =>
      cases node with
      | file content => rfl
      | directory =>
          unfold enter
          by_cases still : segment = "" ∨ segment = "."
          · have short : ¬ maxNameSize < segment.utf8ByteSize := by
              rcases still with rfl | rfl <;> decide
            simp [still, short]
          · by_cases up : segment = ".."
            · subst up
              have short : ¬ maxNameSize < "..".utf8ByteSize := by decide
              simp [short]
            · simp [still, up]

theorem follow_cons_directory {disk : Disk} {place : Location} {segment : String}
    (directory : disk.node? place = some .directory) (rest : List String)
    (short : segment.utf8ByteSize ≤ maxNameSize) :
    disk.follow place (segment :: rest) = disk.follow (enter place segment) rest := by
  simp [follow_cons, directory, Nat.not_lt.mpr short]

theorem follow_cons_eq_ok {disk : Disk} {place reached : Location} {segment : String}
    {rest : List String} (followed : disk.follow place (segment :: rest) = .ok reached) :
    disk.node? place = some .directory ∧ segment.utf8ByteSize ≤ maxNameSize ∧
      disk.follow (enter place segment) rest = .ok reached := by
  rw [follow_cons] at followed
  split at followed
  · cases followed
  · cases followed
  · rename_i directory
    split at followed
    · cases followed
    · rename_i short
      exact ⟨directory, Nat.not_lt.mp short, followed⟩

/-- Only what stands on the trail of a path has to do with where it leads. -/
theorem follow_congr {disk other : Disk} {place : Location} {segments : List String}
    (same : ∀ passed ∈ trail place segments, disk.node? passed = other.node? passed) :
    disk.follow place segments = other.follow place segments := by
  induction segments generalizing place with
  | nil => rfl
  | cons segment rest inductionHypothesis =>
      have here := same place List.mem_cons_self
      have later : disk.follow (enter place segment) rest =
          other.follow (enter place segment) rest :=
        inductionHypothesis fun passed member => same passed (List.mem_cons_of_mem _ member)
      rw [follow_cons, follow_cons, here, later]

theorem reach_eq_of_follow {disk : Disk} {place reached : Location} {segments : List String}
    (followed : disk.follow place segments = .ok reached) : reach place segments = reached := by
  induction segments generalizing place with
  | nil =>
      cases followed
      rfl
  | cons segment rest inductionHypothesis =>
      obtain ⟨_, _, further⟩ := follow_cons_eq_ok followed
      exact inductionHypothesis further

theorem follow_append {disk : Disk} {place middle : Location} {first : List String}
    (second : List String) (followed : disk.follow place first = .ok middle) :
    disk.follow place (first ++ second) = disk.follow middle second := by
  induction first generalizing place with
  | nil =>
      cases followed
      rfl
  | cons segment rest inductionHypothesis =>
      obtain ⟨directory, short, further⟩ := follow_cons_eq_ok followed
      rw [List.cons_append, follow_cons_directory directory _ short]
      exact inductionHypothesis further

/-- A slash at the end of a path changes nothing but that a directory has to be there. -/
theorem follow_of_follow_slash {disk : Disk} {place reached : Location} {segments : List String}
    (followed : disk.follow place (segments ++ [""]) = .ok reached) :
    disk.follow place segments = .ok reached := by
  induction segments generalizing place with
  | nil =>
      obtain ⟨_, _, further⟩ := follow_cons_eq_ok followed
      simpa [enter] using further
  | cons segment rest inductionHypothesis =>
      obtain ⟨directory, short, further⟩ := follow_cons_eq_ok followed
      rw [follow_cons_directory directory _ short]
      exact inductionHypothesis further

end Disk

/-- What a file or directory can be called. -/
structure IsFileName (name : String) : Prop where
  nonempty : name ≠ ""
  not_point : name ≠ "."
  not_points : name ≠ ".."
  slashFree : '/' ∉ name.toList
  zeroFree : '\x00' ∉ name.toList

instance (name : String) : Decidable (IsFileName name) :=
  decidable_of_iff (name ≠ "" ∧ name ≠ "." ∧ name ≠ ".." ∧ '/' ∉ name.toList ∧
      '\x00' ∉ name.toList)
    ⟨fun ⟨nonempty, noPoint, noPoints, slashFree, zeroFree⟩ =>
      ⟨nonempty, noPoint, noPoints, slashFree, zeroFree⟩,
    fun ⟨nonempty, noPoint, noPoints, slashFree, zeroFree⟩ =>
      ⟨nonempty, noPoint, noPoints, slashFree, zeroFree⟩⟩

theorem Location.enter_name {name : String} (proper : IsFileName name) (place : Location) :
    enter place name = place ++ [name] := by
  simp [enter, proper.nonempty, proper.not_point, proper.not_points]

namespace Path

open Location

/-- The name, and the path with it, are short enough for the disk. -/
def CanName (directory : Path) (name : String) : Prop :=
  name.utf8ByteSize ≤ maxNameSize ∧ (directory.join name).size ≤ maxPathSize

instance (directory : Path) (name : String) : Decidable (directory.CanName name) :=
  inferInstanceAs (Decidable (_ ∧ _))

/-- The segments that one more is put behind. A slash at the end of the path adds none. -/
def front (path : Path) : List String :=
  if path.segments.getLast? = some "" then path.segments.dropLast else path.segments

theorem segments_eq_front (path : Path) :
    path.segments = path.front ∨ path.segments = path.front ++ [""] := by
  unfold front
  split
  · rename_i slash
    exact .inr (List.dropLast_append_getLast? "" slash).symm
  · exact .inl rfl

theorem front_prefix (path : Path) : path.front <+: path.segments := by
  rcases path.segments_eq_front with same | slash
  · rw [← same]
  · rw [slash]
    exact List.prefix_append _ _

theorem reach_front (place : Location) (path : Path) :
    reach place path.front = reach place path.segments := by
  rcases path.segments_eq_front with same | slash
  · rw [← same]
  · rw [slash, reach, reach, List.foldl_append]
    simp [enter]

theorem mem_trail_front {place passed : Location} {path : Path}
    (member : passed ∈ trail place path.front) : passed ∈ trail place path.segments := by
  obtain ⟨rest, whole⟩ := path.front_prefix
  rw [← whole]
  exact mem_trail_append rest member

/-- What leads somewhere leads there without a slash at its end. -/
theorem follow_front {disk : Disk} {place reached : Location} {path : Path}
    (followed : disk.follow place path.segments = .ok reached) :
    disk.follow place path.front = .ok reached := by
  rcases path.segments_eq_front with same | slash
  · rwa [← same]
  · rw [slash] at followed
    exact Disk.follow_of_follow_slash followed

theorem join_eq {base : Path} {name : String} (plain : '/' ∉ name.toList) :
    base.join name = ⟨base.front ++ [name]⟩ := by
  have relative : ¬ isAbsolute ⟨[name]⟩ := by simp [isAbsolute]
  simp only [join, ofText_plain plain, relative, front]
  by_cases slash : base.segments.getLast? = some ""
  · simp [slash]
  · simp [slash]

theorem isAbsolute_join {base : Path} {name : String} (proper : IsFileName name) :
    (base.join name).isAbsolute = base.isAbsolute := by
  obtain ⟨segments⟩ := base
  rw [join_eq proper.slashFree]
  match segments with
  | [] => simp [isAbsolute, front]
  | [only] =>
      by_cases empty : only = "" <;> simp [isAbsolute, front, empty]
  | first :: second :: rest =>
      have kept : (second :: rest).dropLast ++ [name] ≠ [] := by simp
      unfold front
      split
      · cases shape : (second :: rest).dropLast ++ [name] with
        | nil => exact absurd shape kept
        | cons next others =>
            by_cases empty : first = "" <;>
              simp [isAbsolute, List.dropLast_cons_cons, empty, shape]
      · by_cases empty : first = "" <;> simp [isAbsolute, empty]

theorem getLast?_join {base : Path} {name : String} (proper : IsFileName name) :
    (base.join name).segments.getLast? = some name := by
  rw [join_eq proper.slashFree]
  exact List.getLast?_concat

theorem withoutEnd_join {base : Path} {name : String} (proper : IsFileName name) :
    (base.join name).withoutEnd = base.join name := by
  have last : (base.join name).segments.getLast? = some name := getLast?_join proper
  generalize base.join name = path at last
  obtain ⟨segments⟩ := path
  have ended : segments.reverse.head? = some name := by simpa using last
  cases reversed : segments.reverse with
  | nil => simp [reversed] at ended
  | cons first rest =>
      obtain rfl : first = name := by simpa [reversed] using ended
      have kept : (first == "") = false := by simpa using proper.nonempty
      have whole : (first :: rest).reverse = segments := by rw [← reversed, List.reverse_reverse]
      simp [withoutEnd, kept, ← whole]

theorem mem_segments_join {base : Path} {name segment : String} (proper : IsFileName name)
    (member : segment ∈ (base.join name).segments) :
    segment ∈ base.segments ∨ segment = name := by
  rw [join_eq proper.slashFree] at member
  rcases List.mem_append.mp member with before | last
  · exact .inl (base.front_prefix.subset before)
  · exact .inr (List.mem_singleton.mp last)

end Path

namespace Disk

open Location

theorem start_join {base : Path} {name : String} (proper : IsFileName name) (disk : Disk) :
    disk.start (base.join name) = disk.start base := by
  simp [start, Path.isAbsolute_join proper]

/-- The path leads to a directory at the place. Its length is another matter. -/
structure Leads (disk : Disk) (path : Path) (place : Location) : Prop where
  zeroFree : ∀ segment ∈ path.segments, '\x00' ∉ segment.toList
  reached : disk.follow (disk.start path) path.segments = .ok place
  directory : disk.node? place = some .directory

namespace Leads

variable {disk : Disk} {path : Path} {place : Location}

theorem locate (leads : disk.Leads path place) (short : path.size ≤ maxPathSize) :
    disk.locate path = .ok place := by
  have zeroFree : (path.segments.any fun segment => segment.toList.contains '\x00') = false := by
    simpa using leads.zeroFree
  have fault : path.fault? = none := by
    rw [Path.fault?, zeroFree, if_neg (by simp), if_neg (Nat.not_lt.mpr short)]
  rw [Disk.locate, fault]
  exact leads.reached

theorem follow_join (leads : disk.Leads path place) {name : String} (proper : IsFileName name) :
    disk.follow (disk.start (path.join name)) (path.join name).segments =
      disk.follow place [name] := by
  rw [start_join proper, Path.join_eq proper.slashFree]
  exact follow_append _ (Path.follow_front leads.reached)

theorem fault?_join (leads : disk.Leads path place) {name : String} (proper : IsFileName name) :
    (path.join name).fault? =
      if maxPathSize < (path.join name).size then some .nameTooLong else none := by
  have zeroFree : ∀ segment ∈ (path.join name).segments, '\x00' ∉ segment.toList := by
    intro segment member
    rcases Path.mem_segments_join proper member with before | last
    · exact leads.zeroFree segment before
    · exact last ▸ proper.zeroFree
  simpa [Path.fault?] using zeroFree

/-- An entry of a directory is found by its name, if the lengths allow it. -/
theorem locate_join (leads : disk.Leads path place) {name : String} (proper : IsFileName name) :
    disk.locate (path.join name) =
      if path.CanName name then .ok (place ++ [name]) else .error .nameTooLong := by
  have named : disk.follow place [name] =
      if maxNameSize < name.utf8ByteSize then .error .nameTooLong else .ok (place ++ [name]) := by
    rw [follow_cons, leads.directory, enter_name proper]
    rfl
  unfold Disk.locate
  rw [leads.fault?_join proper, leads.follow_join proper, named]
  unfold Path.CanName
  by_cases long : maxPathSize < (path.join name).size
  · have refused : ¬ (path.join name).size ≤ maxPathSize := by omega
    simp [long, refused]
  · have allowed : (path.join name).size ≤ maxPathSize := by omega
    by_cases wide : maxNameSize < name.utf8ByteSize
    · have refused : ¬ name.utf8ByteSize ≤ maxNameSize := by omega
      simp [long, wide, refused]
    · have fits : name.utf8ByteSize ≤ maxNameSize := by omega
      simp [long, wide, allowed, fits]

/-- A directory in a directory is led to by one more segment. -/
theorem join (leads : disk.Leads path place) {name : String} (proper : IsFileName name)
    (short : name.utf8ByteSize ≤ maxNameSize)
    (inner : disk.node? (place ++ [name]) = some .directory) :
    disk.Leads (path.join name) (place ++ [name]) where
  zeroFree segment member := by
    rcases Path.mem_segments_join proper member with before | last
    · exact leads.zeroFree segment before
    · exact last ▸ proper.zeroFree
  reached := by
    rw [leads.follow_join proper, follow_cons_directory leads.directory _ short, enter_name proper]
    rfl
  directory := inner

end Leads

end Disk

end TextTables
