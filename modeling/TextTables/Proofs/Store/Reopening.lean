import TextTables.Proofs.Store.Confinement

/-!
# Opening a store again

A store can be opened on a path that leads through directories of its own databases, and can have
lost such directories since. Opening it again makes the missing ones where nothing stands, and
changes nothing else.
-/

namespace TextTables

open Location Work

namespace DiskM

variable {root : Path} {top : Location} {disk : Disk}

/-- A place where nothing stands is entered from above by a proper name, or from below. -/
theorem enter_free {middle : Location} {last : String}
    (directory : disk.node? middle = some .directory)
    (free : disk.node? (enter middle last) = none) :
    (enter middle last = middle ++ [last] ∧ last ≠ "" ∧ last ≠ "." ∧ last ≠ "..") ∨
      ∃ name, middle = enter middle last ++ [name] := by
  unfold enter at free ⊢
  split at free <;> rename_i still
  · rw [directory] at free
    cases free
  rw [if_neg still]
  obtain ⟨nonempty, noPoint⟩ := not_or.mp still
  split at free <;> rename_i up
  · rw [if_pos up]
    rcases List.eq_nil_or_concat middle with rfl | ⟨parent, name, rfl⟩
    · rw [List.dropLast_nil, directory] at free
      cases free
    · exact .inr ⟨name, by simp⟩
  · rw [if_neg up]
    exact .inl ⟨rfl, nonempty, noPoint, up⟩

/-- A directory is made at the end of a path, unless its end is its start above the premises. -/
theorem makeDirectory_grown {path : Path} {after : Disk} (orderly : disk.Orderly root top)
    (slashFree : ∀ segment ∈ path.segments, '/' ∉ segment.toList)
    (moves : path.withoutEnd.segments = [] → disk.start path = top)
    (made : makeDirectory path disk = .ok () after) : Disk.Grown root top disk after := by
  obtain ⟨sound, place, followed, free, rfl⟩ := makeDirectory_eq_ok made
  suffices fine : (∀ rest, place = top ++ rest → ∀ name ∈ rest, IsFileName name) ∧
      ∀ parent name, top <+: parent → place = parent ++ [name] →
        disk.node? parent = some .directory from
    ⟨orderly.putDirectory free fine.1 fine.2, .put free _⟩
  rcases List.eq_nil_or_concat path.withoutEnd.segments with still | ⟨way, last, split⟩
  · rw [still] at followed
    cases followed
    rw [moves still]
    refine ⟨fun rest same => ?_, fun parent name inside same => ?_⟩
    · rw [List.self_eq_append_right.mp same]
      simp
    · exact absurd (same ▸ inside) (not_prefix_of_concat parent name)
  · rw [List.concat_eq_append] at split
    rw [split] at followed
    obtain ⟨middle, -, directory, -, rfl⟩ := Disk.follow_concat_eq_ok followed
    rcases enter_free directory free with ⟨below, nonempty, noPoint, noPoints⟩ | ⟨name, above⟩
    · rw [below]
      have member : last ∈ path.segments := by
        obtain ⟨count, slashes⟩ := path.exists_withoutEnd_append
        rw [slashes, split]
        simp
      have proper : IsFileName last := ⟨nonempty, noPoint, noPoints, slashFree last member,
        (Disk.zeroFree_of_fault? sound).1 last member⟩
      refine ⟨fun rest same name inside => ?_, fun parent name _ same => ?_⟩
      · rcases List.eq_nil_or_concat rest with rfl | ⟨front, final, rfl⟩
        · cases inside
        · rw [List.concat_eq_append] at same inside
          rw [← List.append_assoc] at same
          obtain ⟨rfl, ends⟩ := List.append_inj' same rfl
          rcases List.mem_append.mp inside with before | here
          · exact orderly.named front (by simp [directory]) name before
          · rw [List.mem_singleton.mp here, ← List.singleton_inj.mp ends]
            exact proper
      · rw [← (List.append_inj' same rfl).1, directory]
    · -- A directory below the premises stands in another one, so this one is not missing.
      have outside : ¬ top <+: enter middle last := by
        intro inside
        have stands := orderly.grounded _ name inside (by rw [← above, directory]; simp)
        rw [free] at stands
        cases stands
      refine ⟨fun rest same => ?_, fun parent name inside same => ?_⟩
      · exact absurd ⟨rest, same.symm⟩ outside
      · exact absurd (inside.trans ⟨[name], same.symm⟩) outside

theorem ensureDirectory_grown {path : Path} (orderly : disk.Orderly root top)
    (slashFree : ∀ segment ∈ path.segments, '/' ∉ segment.toList)
    (moves : path.withoutEnd.segments = [] → disk.start path = top) :
    Disk.Grown root top disk (left (ensureDirectory path disk)) := by
  unfold ensureDirectory
  cases outcome : makeDirectory path disk with
  | ok result after => exact makeDirectory_grown orderly slashFree moves outcome
  | error fault after =>
      obtain rfl := makeDirectory_eq_error outcome
      dsimp only
      split <;> exact .refl orderly

/-- What making each of the directories keeps up, making all of them does. -/
theorem left_ensureChain (property : Disk → Prop) {paths : List Path}
    (each : ∀ path ∈ paths, ∀ disk, property disk → property (left (ensureDirectory path disk)))
    (holds : property disk) : property (left (ensureChain paths disk)) := by
  induction paths generalizing disk with
  | nil => exact holds
  | cons path ancestors inductionHypothesis =>
      have here := each path List.mem_cons_self
      unfold ensureChain
      have first := here disk holds
      split
      · rename_i middle missing
        rw [missing] at first
        refine left_bind property ?_ fun _ => here
        exact inductionHypothesis (fun other member => each other (.tail _ member)) first
      · exact first

end DiskM

namespace Path

/-- A path that is all slashes leads nowhere else. -/
theorem endOf_of_withoutEnd {path : Path} (still : path.withoutEnd.segments = []) (disk : Disk) :
    disk.endOf path = disk.start path := by
  obtain ⟨count, slashes⟩ := path.exists_withoutEnd_append
  rw [still, List.nil_append] at slashes
  have stays : ∀ count place, reach place (List.replicate count "") = place := by
    intro count place
    induction count with
    | zero => rfl
    | succ count inductionHypothesis =>
        rw [List.replicate_succ, reach_cons]
        simpa [enter] using inductionHypothesis
  rw [Disk.endOf, slashes, stays]

/-- A directory that a path goes through is named by segments of the path, of which one is more than
a slash. -/
theorem ancestor_segments {path ancestor : Path} (member : ancestor ∈ path.ancestors) :
    (∀ segment ∈ ancestor.segments, segment = "" ∨ segment ∈ path.segments) ∧
      ancestor.withoutEnd.segments ≠ [] := by
  obtain ⟨count, first, others, taken, rfl⟩ := exists_of_mem_ancestors member
  have step : ∀ segment ∈ path.steps.take count, segment ≠ "" ∧ segment ∈ path.segments :=
    fun segment inside => of_mem_steps (List.take_subset _ _ inside)
  constructor
  · intro segment inside
    rcases List.mem_append.mp inside with slash | later
    · split at slash
      · exact .inl (List.mem_singleton.mp slash)
      · cases slash
    · exact .inr (step segment later).2
  · intro still
    obtain ⟨slashes, same⟩ := exists_withoutEnd_append
      ⟨(if path.isAbsolute then [""] else []) ++ path.steps.take count⟩
    rw [still, List.nil_append] at same
    have inside : first ∈ path.steps.take count := taken ▸ List.mem_cons_self
    have slash : first ∈ List.replicate slashes "" := same ▸ List.mem_append_right _ inside
    exact (step first inside).1 (List.eq_of_mem_replicate slash)

end Path

/-- No piece between two slashes has a slash. -/
theorem Path.slashFree_ofText (text : String) :
    ∀ segment ∈ (Path.ofText text).segments, '/' ∉ segment.toList := by
  intro segment member
  obtain ⟨piece, inside, rfl⟩ := List.mem_map.mp member
  rw [String.toList_ofList]
  exact (Text.piece_of_mem_splitOn inside).1

/-- However often a store is opened, it only makes directories that are missing. -/
theorem Session.openAt_grown {root : Path} {top : Location} {disk : Disk}
    (orderly : disk.Orderly root top)
    (slashFree : ∀ segment ∈ root.segments, '/' ∉ segment.toList) :
    Disk.Grown root top disk (left (openAt root disk)) := by
  have same : left (openAt root disk) = left (DiskM.ensureDirectories root disk) := by
    cases outcome : DiskM.ensureDirectories root disk with
    | ok result after => rw [openAt_ok outcome]; rfl
    | error fault after => rw [openAt_error outcome]; rfl
  rw [same]
  refine DiskM.left_ensureChain (Disk.Grown root top disk) ?_ (.refl orderly)
  intro path member middle grown
  refine grown.trans (DiskM.ensureDirectory_grown grown.orderly ?_ ?_)
  · intro segment inside
    rcases List.mem_cons.mp member with rfl | above
    · exact slashFree segment inside
    · rcases (Path.ancestor_segments above).1 segment inside with rfl | present
      · simp
      · exact slashFree segment present
  · intro still
    rcases List.mem_cons.mp member with rfl | above
    · rw [← Path.endOf_of_withoutEnd still, grown.orderly.ends]
    · exact absurd still (Path.ancestor_segments above).2

end TextTables
