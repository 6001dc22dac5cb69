import TextTables.Proofs.Store.Mirror
import TextTables.Session

/-!
# Opening a store

A store is opened on a path whose directories are made as far as they are missing. All that is
made lies on the way of the path, so the root of a new store is empty unless its path leads
through a place below its own end.
-/

namespace TextTables

open Location

/-- The place where the segments of the path end. -/
def Disk.endOf (disk : Disk) (path : Path) : Location :=
  reach (disk.start path) path.segments

/-- The path leads through no place below its end. -/
def Disk.IsStraight (disk : Disk) (path : Path) : Prop :=
  ∀ passed ∈ trail (disk.start path) path.segments,
    disk.endOf path <+: passed → passed = disk.endOf path

/-- Nothing stands below the end of the path, at which there can be an empty directory. -/
def Disk.IsBare (disk : Disk) (path : Path) : Prop :=
  ∀ name rest, disk.node? (disk.endOf path ++ name :: rest) = none

theorem Disk.isBare_empty (path : Path) : Disk.empty.IsBare path := by
  intro name rest
  simp [node?, empty]

/-- Where nothing stands, nothing is listed twice. -/
theorem Disk.tidy_of_vacant {disk : Disk} {top : Location}
    (vacant : ∀ name rest, disk.node? (top ++ name :: rest) = none) : disk.Tidy top := by
  rintro _ ⟨deeper, rfl⟩
  have none : disk.names (top ++ deeper) = [] := by
    refine List.eq_nil_iff_forall_not_mem.mpr fun name member => ?_
    apply Disk.mem_names_iff.mp member
    rw [List.append_assoc]
    cases deeper with
    | nil => exact vacant name []
    | cons first rest => exact vacant first (rest ++ [name])
  rw [none]
  exact List.nodup_nil

/-- One disk is made from the other by work on places of a list. -/
structure Disk.ChangedOn (places : List Location) (before after : Disk) : Prop where
  home : after.home = before.home
  outside : ∀ other ∉ places, after.node? other = before.node? other

namespace Disk.ChangedOn

variable {places : List Location} {before middle after : Disk}

theorem refl (places : List Location) (disk : Disk) : ChangedOn places disk disk :=
  ⟨rfl, fun _ _ => rfl⟩

theorem trans (first : ChangedOn places before middle) (second : ChangedOn places middle after) :
    ChangedOn places before after where
  home := second.home.trans first.home
  outside other apart := (second.outside other apart).trans (first.outside other apart)

theorem weaken {wider : List Location} (changed : ChangedOn places before after)
    (inside : places ⊆ wider) : ChangedOn wider before after where
  home := changed.home
  outside other apart := changed.outside other fun member => apart (inside member)

end Disk.ChangedOn

namespace Path

theorem exists_withoutEnd_append (path : Path) :
    ∃ count, path.segments = path.withoutEnd.segments ++ List.replicate count "" := by
  have whole := List.takeWhile_append_dropWhile (p := (· == "")) (l := path.segments.reverse)
  have slashes : path.segments.reverse.takeWhile (· == "") =
      List.replicate (path.segments.reverse.takeWhile (· == "")).length "" := by
    refine List.eq_replicate_iff.mpr ⟨rfl, fun segment member => ?_⟩
    simpa using List.all_eq_true.mp List.all_takeWhile segment member
  refine ⟨(path.segments.reverse.takeWhile (· == "")).length, ?_⟩
  rw [withoutEnd, ← List.reverse_replicate, ← slashes, ← List.reverse_append, whole,
    List.reverse_reverse]

/-- Segments that lead nowhere can be left out of the way. -/
theorem trail_steps_subset (place : Location) (segments : List String) :
    trail place (segments.filter fun segment => segment != "" && segment != ".") ⊆
      trail place segments := by
  induction segments generalizing place with
  | nil => exact fun _ member => member
  | cons segment rest inductionHypothesis =>
      by_cases still : segment = "" ∨ segment = "."
      · have dropped : (segment != "" && segment != ".") = false := by
          rcases still with rfl | rfl <;> decide
        have stays : enter place segment = place := by simp [enter, still]
        rw [List.filter_cons, dropped, if_neg (by simp), trail, stays]
        exact List.Subset.trans (inductionHypothesis place) (List.subset_cons_self _ _)
      · have kept : (segment != "" && segment != ".") = true := by
          simpa [not_or] using still
        rw [List.filter_cons, kept, if_pos rfl, trail, trail]
        exact List.cons_subset_cons _ (inductionHypothesis _)

theorem trail_prefix_subset (place : Location) {first whole : List String}
    (front : first <+: whole) : trail place first ⊆ trail place whole := by
  obtain ⟨rest, rfl⟩ := front
  exact fun _ member => mem_trail_append rest member

theorem of_mem_steps {path : Path} {segment : String} (member : segment ∈ path.steps) :
    segment ≠ "" ∧ segment ∈ path.segments := by
  obtain ⟨present, kept⟩ := List.mem_filter.mp member
  simp only [Bool.and_eq_true, bne_iff_ne] at kept
  exact ⟨kept.1, present⟩

/-- A directory that a path goes through is named by its first steps, and by at least one. -/
theorem exists_of_mem_ancestors {path ancestor : Path} (member : ancestor ∈ path.ancestors) :
    ∃ count first others, path.steps.take count = first :: others ∧
      ancestor = ⟨(if path.isAbsolute then [""] else []) ++ path.steps.take count⟩ := by
  simp only [ancestors, List.mem_map, List.mem_reverse, List.mem_range'_1] at member
  obtain ⟨count, ⟨positive, bound⟩, rfl⟩ := member
  have nonempty : path.steps.take count ≠ [] := by
    rw [Ne, List.take_eq_nil_iff]
    rintro (zero | empty)
    · omega
    · rw [empty, List.length_nil] at bound
      omega
  obtain ⟨first, others, taken⟩ := List.exists_cons_of_ne_nil nonempty
  exact ⟨count, first, others, taken, rfl⟩

/-- The directories that a path goes through lie on its way. -/
theorem trail_ancestor_subset (disk : Disk) {path ancestor : Path}
    (member : ancestor ∈ path.ancestors) :
    trail (disk.start ancestor) ancestor.segments ⊆ trail (disk.start path) path.segments := by
  obtain ⟨count, first, others, taken, rfl⟩ := exists_of_mem_ancestors member
  have steps : trail (disk.start path) (path.steps.take count) ⊆
      trail (disk.start path) path.segments :=
    List.Subset.trans (trail_prefix_subset _ (List.take_prefix _ _)) (trail_steps_subset _ _)
  by_cases absolute : path.isAbsolute
  · have starts : disk.start path = [] := by simp [Disk.start, absolute]
    have same : disk.start ⟨"" :: path.steps.take count⟩ = [] := by
      simp [Disk.start, isAbsolute, taken]
    rw [starts] at steps ⊢
    simp only [absolute, if_true, List.singleton_append, same]
    have front : trail [] ("" :: path.steps.take count) =
        [] :: trail [] (path.steps.take count) := rfl
    rw [front]
    refine List.cons_subset.mpr ⟨?_, steps⟩
    cases path.segments <;> simp [trail]
  · have inside : first ∈ path.steps := List.take_subset _ _ (taken ▸ List.mem_cons_self)
    have nonempty := (of_mem_steps inside).1
    have starts : disk.start path = disk.home := by simp [Disk.start, absolute]
    have same : disk.start ⟨path.steps.take count⟩ = disk.home := by
      simp [Disk.start, isAbsolute, taken, nonempty]
    rw [starts] at steps ⊢
    simpa [absolute, same] using steps

end Path

namespace Disk

variable {disk : Disk} {path : Path} {place : Location}

/-- A new node lies on no way that has been followed before its end. -/
theorem follow_put {segments : List String} {reached new : Location} (node : Node)
    (followed : disk.follow place segments = .ok reached) (free : disk.node? new = none) :
    (disk.put new node).follow place segments = .ok reached := by
  have below : new ≠ [] := by
    rintro rfl
    simp [node?] at free
  induction segments generalizing place with
  | nil => exact followed
  | cons segment rest inductionHypothesis =>
      obtain ⟨directory, short, further⟩ := follow_cons_eq_ok followed
      have old : place ≠ new := by
        rintro rfl
        rw [free] at directory
        cases directory
      have kept : (disk.put new node).node? place = some .directory := by
        rw [node?_put _ below, if_neg old, directory]
      rw [follow_cons_directory kept _ short]
      exact inductionHypothesis further

theorem follow_slashes (directory : disk.node? place = some .directory) (count : Nat) :
    disk.follow place (List.replicate count "") = .ok place := by
  induction count with
  | zero => rfl
  | succ count inductionHypothesis =>
      rw [List.replicate_succ, follow_cons_directory directory _ (by decide)]
      simpa [enter] using inductionHypothesis

theorem follow_of_follow_slashes {segments : List String} {reached : Location} {count : Nat}
    (followed : disk.follow place (segments ++ List.replicate count "") = .ok reached) :
    disk.follow place segments = .ok reached := by
  induction count with
  | zero => simpa using followed
  | succ count inductionHypothesis =>
      rw [List.replicate_succ', ← List.append_assoc] at followed
      exact inductionHypothesis (follow_of_follow_slash followed)

theorem zeroFree_of_fault? (sound : path.fault? = none) :
    (∀ segment ∈ path.segments, '\x00' ∉ segment.toList) ∧ path.size ≤ maxPathSize := by
  unfold Path.fault? at sound
  split at sound
  · cases sound
  · rename_i zeroFree
    split at sound
    · cases sound
    · rename_i short
      exact ⟨by simpa using zeroFree, Nat.not_lt.mp short⟩

end Disk

namespace DiskM

variable {disk after : Disk} {path : Path}

/-- A directory is made at the end of the path, where nothing stood. -/
theorem makeDirectory_eq_ok (made : makeDirectory path disk = .ok () after) :
    path.fault? = none ∧ ∃ place,
      disk.follow (disk.start path) path.withoutEnd.segments = .ok place ∧
        disk.node? place = none ∧ after = disk.put place .directory := by
  rw [makeDirectory_apply] at made
  unfold Disk.locateNew at made
  cases fault : path.fault? with
  | some fault' => simp [fault] at made
  | none =>
      cases followed : disk.follow (disk.start path) path.withoutEnd.segments with
      | error fault' => simp [fault, followed] at made
      | ok place =>
          simp only [fault, followed] at made
          cases stands : disk.node? place with
          | some node => simp [stands] at made
          | none =>
              simp only [stands, EStateM.Result.ok.injEq, true_and] at made
              exact ⟨rfl, place, rfl, stands, made.symm⟩

theorem makeDirectory_eq_error {fault : Fault}
    (failed : makeDirectory path disk = .error fault after) : after = disk := by
  rw [makeDirectory_apply] at failed
  split at failed
  · cases failed
    rfl
  · split at failed
    · cases failed
      rfl
    · cases failed

/-- The path of a directory that is ensured leads to it. -/
theorem ensureDirectory_leads (ensured : ensureDirectory path disk = .ok () after) :
    after.Leads path (disk.endOf path) ∧ path.size ≤ maxPathSize := by
  unfold ensureDirectory at ensured
  obtain ⟨count, slashes⟩ := path.exists_withoutEnd_append
  cases outcome : makeDirectory path disk with
  | ok result middle =>
      rw [outcome] at ensured
      cases ensured
      obtain ⟨sound, place, followed, free, rfl⟩ := makeDirectory_eq_ok outcome
      obtain ⟨zeroFree, short⟩ := Disk.zeroFree_of_fault? sound
      have below : place ≠ [] := by
        rintro rfl
        simp [Disk.node?] at free
      have directory : (disk.put place .directory).node? place = some .directory := by
        rw [Disk.node?_put _ below, if_pos rfl]
      have starts : (disk.put place .directory).start path = disk.start path := by
        refine Disk.start_congr ?_ path
        unfold Disk.put
        split <;> rfl
      have reached : (disk.put place .directory).follow (disk.start path) path.segments =
          .ok place := by
        rw [slashes, Disk.follow_append _ (Disk.follow_put .directory followed free)]
        exact Disk.follow_slashes directory count
      have same : disk.endOf path = place := Disk.reach_eq_of_follow reached
      rw [same]
      exact ⟨⟨zeroFree, by rw [starts, reached], directory⟩, short⟩
  | error fault middle =>
      rw [outcome] at ensured
      obtain rfl := makeDirectory_eq_error outcome
      dsimp only at ensured
      split at ensured
      · rename_i isDirectory
        cases ensured
        unfold Disk.isDirectory Disk.lookup? Disk.locate at isDirectory
        cases sound : path.fault? with
        | some fault' => simp [sound] at isDirectory
        | none =>
            obtain ⟨zeroFree, short⟩ := Disk.zeroFree_of_fault? sound
            cases followed : after.follow (after.start path) path.segments with
            | error fault' => simp [sound, followed] at isDirectory
            | ok place =>
                have same : after.endOf path = place := Disk.reach_eq_of_follow followed
                rw [same]
                exact ⟨⟨zeroFree, followed, by simpa [sound, followed] using isDirectory⟩, short⟩
      · cases ensured

/-- Whether a directory is made or not, nothing changes but on its way. -/
theorem ensureDirectory_changedOn (path : Path) (disk : Disk) :
    (∃ after, ensureDirectory path disk = .ok () after ∧
        Disk.ChangedOn (trail (disk.start path) path.segments) disk after) ∨
      ∃ fault, ensureDirectory path disk = .error fault disk := by
  unfold ensureDirectory
  cases outcome : makeDirectory path disk with
  | ok result middle =>
      obtain ⟨-, place, followed, free, rfl⟩ := makeDirectory_eq_ok outcome
      have below : place ≠ [] := by
        rintro rfl
        simp [Disk.node?] at free
      have passed : place ∈ trail (disk.start path) path.segments := by
        obtain ⟨count, slashes⟩ := path.exists_withoutEnd_append
        rw [slashes, ← Disk.reach_eq_of_follow followed]
        exact mem_trail_append _ (reach_mem_trail _ _)
      refine .inl ⟨_, rfl, ?_, ?_⟩
      · unfold Disk.put
        split <;> rfl
      · intro other apart
        rw [Disk.node?_put _ below, if_neg]
        rintro rfl
        exact apart passed
  | error fault middle =>
      obtain rfl := makeDirectory_eq_error outcome
      dsimp only
      split
      · exact .inl ⟨_, rfl, Disk.ChangedOn.refl _ _⟩
      · exact .inr ⟨fault, rfl⟩

/-- Directories are made one after the other along the same way. -/
theorem ensureChain_changedOn {paths : List Path} {places : List Location}
    (along : ∀ path ∈ paths, trail (disk.start path) path.segments ⊆ places) :
    (∃ after, ensureChain paths disk = .ok () after ∧ Disk.ChangedOn places disk after) ∨
      ∃ fault after, ensureChain paths disk = .error fault after ∧
        Disk.ChangedOn places disk after := by
  induction paths generalizing disk with
  | nil => exact .inl ⟨disk, rfl, Disk.ChangedOn.refl _ _⟩
  | cons path ancestors inductionHypothesis =>
      unfold ensureChain
      have here := along path List.mem_cons_self
      rcases ensureDirectory_changedOn path disk with ⟨after, ensured, changed⟩ | ⟨fault, failed⟩
      · rw [ensured]
        exact .inl ⟨after, rfl, changed.weaken here⟩
      · rw [failed]
        by_cases missing : fault = .notFound
        · subst missing
          have above := inductionHypothesis fun other member => along other (.tail _ member)
          rcases above with ⟨middle, chained, changed⟩ | ⟨other, middle, stopped, changed⟩
          · have starts := Disk.start_congr changed.home path
            dsimp only
            rw [Work.bind_ok chained]
            rcases ensureDirectory_changedOn path middle with
              ⟨after, ensured, last⟩ | ⟨other, again⟩
            · rw [starts] at last
              exact .inl ⟨after, ensured, changed.trans (last.weaken here)⟩
            · exact .inr ⟨other, middle, again, changed⟩
          · dsimp only
            rw [Work.bind_error stopped]
            exact .inr ⟨other, middle, rfl, changed⟩
        · refine .inr ⟨fault, disk, ?_, Disk.ChangedOn.refl _ _⟩
          cases fault <;> first | rfl | exact absurd rfl missing

theorem ensureDirectories_eq_ok (ensured : ensureDirectories path disk = .ok () after) :
    after.Leads path (disk.endOf path) ∧ path.size ≤ maxPathSize ∧
      Disk.ChangedOn (trail (disk.start path) path.segments) disk after := by
  have along : ∀ ancestor ∈ path :: path.ancestors,
      trail (disk.start ancestor) ancestor.segments ⊆ trail (disk.start path) path.segments := by
    intro ancestor member
    rcases List.mem_cons.mp member with rfl | above
    · exact fun _ passed => passed
    · exact Path.trail_ancestor_subset disk above
  have changed : Disk.ChangedOn (trail (disk.start path) path.segments) disk after := by
    rcases ensureChain_changedOn along with ⟨other, chained, changed⟩ | ⟨fault, other, stopped, -⟩
    · cases chained.symm.trans ensured
      exact changed
    · cases stopped.symm.trans ensured
  unfold ensureDirectories ensureChain at ensured
  rcases ensureDirectory_changedOn path disk with ⟨first, done, -⟩ | ⟨fault, failed⟩
  · rw [done] at ensured
    cases ensured
    obtain ⟨leads, short⟩ := ensureDirectory_leads done
    exact ⟨leads, short, changed⟩
  · rw [failed] at ensured
    by_cases missing : fault = .notFound
    · subst missing
      obtain ⟨_, middle, chained, last⟩ := Work.bind_eq_ok_iff.mp ensured
      have above : Disk.ChangedOn (trail (disk.start path) path.segments) disk middle := by
        rcases ensureChain_changedOn fun ancestor member => along ancestor (.tail _ member) with
          ⟨other, again, changed⟩ | ⟨fault, other, stopped, -⟩
        · cases again.symm.trans chained
          exact changed
        · cases stopped.symm.trans chained
      obtain ⟨leads, short⟩ := ensureDirectory_leads last
      have same : middle.endOf path = disk.endOf path := by
        rw [Disk.endOf, Disk.endOf, Disk.start_congr above.home]
      exact ⟨same ▸ leads, short, changed⟩
    · cases fault <;> first | cases ensured | exact absurd rfl missing

/-- A directory that is there is ensured without a change. -/
theorem ensureDirectories_of_leads {place : Location} (leads : disk.Leads path place)
    (short : path.size ≤ maxPathSize) : ensureDirectories path disk = .ok () disk := by
  have isDirectory : disk.isDirectory path := by
    simp [Disk.isDirectory, Disk.lookup?, leads.locate short, leads.directory]
  have ensured : ensureDirectory path disk = .ok () disk := by
    unfold ensureDirectory
    cases outcome : makeDirectory path disk with
    | ok result middle =>
        obtain ⟨-, other, followed, free, -⟩ := makeDirectory_eq_ok outcome
        obtain ⟨count, slashes⟩ := path.exists_withoutEnd_append
        have reached := leads.reached
        rw [slashes] at reached
        have same := Disk.follow_of_follow_slashes reached
        rw [followed] at same
        cases same
        rw [leads.directory] at free
        cases free
    | error fault middle =>
        obtain rfl := makeDirectory_eq_error outcome
        dsimp only
        rw [if_pos isDirectory]
  unfold ensureDirectories ensureChain
  rw [ensured]

end DiskM

namespace Session

variable {root : Path} {disk : Disk}

theorem openAt_ok {after : Disk} (ensured : DiskM.ensureDirectories root disk = .ok () after) :
    openAt root disk = .ok ⟨⟨root⟩, none⟩ after := by
  have store : Store.openAt root disk = .ok ⟨root⟩ after :=
    Work.bind_ok (StoreM.ofDisk_ok ensured) _
  exact Work.bind_ok store _

theorem openAt_error {after : Disk} {fault : Fault}
    (failed : DiskM.ensureDirectories root disk = .error fault after) :
    openAt root disk = .error (.disk fault) after := by
  have store : Store.openAt root disk = .error (.disk fault) after :=
    Work.bind_error (StoreM.ofDisk_error failed) _
  exact Work.bind_error store _

/-- A session that has just been opened has nothing selected. -/
theorem eq_of_openAt {session : Session} {after : Disk}
    (opened : openAt root disk = .ok session after) :
    session.store = ⟨root⟩ ∧ session.current = none := by
  cases ensured : DiskM.ensureDirectories root disk with
  | ok result middle =>
      cases (openAt_ok ensured).symm.trans opened
      exact ⟨rfl, rfl⟩
  | error fault middle => cases (openAt_error ensured).symm.trans opened

/-- A new store is a world without databases. -/
theorem openAt_mirrors {session : Session} {start : Disk} (straight : disk.IsStraight root)
    (bare : disk.IsBare root) (opened : openAt root disk = .ok session start) :
    session = ⟨⟨root⟩, none⟩ ∧ start.Mirrors root (disk.endOf root) (fun _ => none) ∧
      root.size ≤ maxPathSize := by
  have steps : DiskM.ensureDirectories root disk = .ok () start ∧ session = ⟨⟨root⟩, none⟩ := by
    cases ensured : DiskM.ensureDirectories root disk with
    | ok result after =>
        cases (openAt_ok ensured).symm.trans opened
        exact ⟨rfl, rfl⟩
    | error fault after =>
        cases (openAt_error ensured).symm.trans opened
  obtain ⟨ensured, shape⟩ := steps
  obtain ⟨leads, short, changed⟩ := DiskM.ensureDirectories_eq_ok ensured
  have starts := Disk.start_congr changed.home root
  have vacant : ∀ name rest, start.node? (disk.endOf root ++ name :: rest) = none := by
    intro name rest
    rw [changed.outside, bare name rest]
    intro passed
    have same := straight _ passed (List.prefix_append _ _)
    simp at same
  refine ⟨shape, ⟨⟨leads, ?_⟩, ?_, ?_⟩, short⟩
  · rw [starts]
    exact straight
  · exact Disk.tidy_of_vacant vacant
  · exact fun name rest => vacant name rest

/-- A store is made at the end of a path on which nothing else is missing. -/
theorem openAt_new {place : Location} (located : disk.locateNew root = .ok place)
    (free : disk.node? place = none) :
    openAt root disk = .ok ⟨⟨root⟩, none⟩ (disk.put place .directory) := by
  have made : DiskM.makeDirectory root disk = .ok () (disk.put place .directory) := by
    rw [DiskM.makeDirectory_apply, located]
    simp only [free]
  have ensured : DiskM.ensureDirectories root disk = .ok () (disk.put place .directory) := by
    simp only [DiskM.ensureDirectories, DiskM.ensureChain, DiskM.ensureDirectory, made]
  exact openAt_ok ensured

/-- A store that is there is opened again without a change. -/
theorem openAt_of_leads {place : Location} (leads : disk.Leads root place)
    (short : root.size ≤ maxPathSize) : openAt root disk = .ok ⟨⟨root⟩, none⟩ disk :=
  openAt_ok (DiskM.ensureDirectories_of_leads leads short)

end Session

end TextTables
