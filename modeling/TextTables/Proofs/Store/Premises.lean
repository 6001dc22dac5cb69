import TextTables.Proofs.Disk.Standing
import TextTables.Proofs.Store.Failing

/-!
# The premises of a store

A store is opened on any path, and the path can lead through directories of its own databases. Even
then its files stand only in such directories and are named as the files of tables. Where something
stands is told by the path alone, so that work on one table or database reaches no other.
-/

namespace TextTables

open Location

theorem Location.reach_append (place : Location) (first second : List String) :
    reach place (first ++ second) = reach (reach place first) second :=
  List.foldl_append

/-- The name of one of the two files of a table. -/
def IsFileOf (table file : String) : Prop :=
  file = table ++ tableEnding ∨ file = table ++ counterEnding

theorem IsFileOf.isFileName {table file : String} (isFile : IsFileOf table file)
    (named : IsName table) : IsFileName file := by
  rcases isFile with rfl | rfl
  · exact named.isFileName_table
  · exact named.isFileName_counter

namespace Disk

variable {disk : Disk} {path : Path} {place reached : Location} {name : String}

theorem noDirectory_of_free (free : disk.node? place = none) :
    disk.node? place ≠ some .directory := by
  rw [free]
  exact nofun

/-- Whatever stands on the way, a name in a directory ends below the directory. -/
theorem endOf_join (proper : IsFileName name) :
    disk.endOf (path.join name) = disk.endOf path ++ [name] := by
  unfold endOf
  rw [start_join proper, Path.join_eq proper.slashFree, reach_append, Path.reach_front]
  exact enter_name proper _

theorem follow_concat_eq_ok {segments : List String}
    (followed : disk.follow place (segments ++ [name]) = .ok reached) :
    ∃ middle, disk.follow place segments = .ok middle ∧ disk.node? middle = some .directory ∧
      name.utf8ByteSize ≤ maxNameSize ∧ reached = enter middle name := by
  induction segments generalizing place with
  | nil =>
      obtain ⟨directory, short, further⟩ := follow_cons_eq_ok followed
      cases further
      exact ⟨place, rfl, directory, short, rfl⟩
  | cons segment rest inductionHypothesis =>
      obtain ⟨directory, short, further⟩ := follow_cons_eq_ok followed
      obtain ⟨middle, before, last⟩ := inductionHypothesis further
      exact ⟨middle, (follow_cons_directory directory rest short).trans before, last⟩

/-- The segments of a name in a directory are followed only if those of the directory are. -/
theorem leads_of_follow_join (proper : IsFileName name)
    (zeroFree : ∀ segment ∈ (path.join name).segments, '\x00' ∉ segment.toList)
    (followed : disk.follow (disk.start (path.join name)) (path.join name).segments = .ok place) :
    disk.Leads path (disk.endOf path) ∧ name.utf8ByteSize ≤ maxNameSize := by
  rw [start_join proper] at followed
  rw [Path.join_eq proper.slashFree] at zeroFree followed
  obtain ⟨middle, before, directory, fits, -⟩ := follow_concat_eq_ok followed
  have inFront : ∀ segment ∈ path.front, '\x00' ∉ segment.toList :=
    fun segment member => zeroFree segment (List.mem_append_left _ member)
  have same : disk.endOf path = middle := by
    rw [endOf, ← Path.reach_front]
    exact reach_eq_of_follow before
  refine ⟨⟨?_, ?_, same ▸ directory⟩, fits⟩
  · rcases path.segments_eq_front with plain | slash
    · rwa [plain]
    · rw [slash]
      exact List.forall_mem_append.mpr ⟨inFront, by simp⟩
  · rw [same]
    rcases path.segments_eq_front with plain | slash
    · rwa [plain]
    · rw [slash, follow_append _ before, follow_cons_directory directory _ (by decide)]
      simp [enter, follow]

/-- A name in a directory leads somewhere only if its path leads to the directory. -/
theorem leads_of_locate_join (proper : IsFileName name)
    (located : disk.locate (path.join name) = .ok place) :
    disk.Leads path (disk.endOf path) ∧ path.CanName name ∧ place = disk.endOf path ++ [name] := by
  unfold Disk.locate at located
  cases fault : (path.join name).fault? with
  | some fault => simp [fault] at located
  | none =>
      simp only [fault] at located
      obtain ⟨zeroFree, short⟩ := zeroFree_of_fault? fault
      obtain ⟨leads, fits⟩ := leads_of_follow_join proper zeroFree located
      refine ⟨leads, ⟨fits, short⟩, ?_⟩
      rw [← endOf_join proper]
      exact (reach_eq_of_follow located).symm

/-- A directory in a directory is led to only if that one is. -/
theorem Leads.of_join (leads : disk.Leads (path.join name) place) (proper : IsFileName name) :
    disk.Leads path (disk.endOf path) :=
  (leads_of_follow_join proper leads.zeroFree leads.reached).1

/-- The place of an entry of a directory below the root is told by the path alone. -/
theorem leads_of_locate_entry {root : Path} {directory file : String}
    (named : IsFileName directory) (proper : IsFileName file)
    (located : disk.locate ((root.join directory).join file) = .ok place) :
    disk.Leads (root.join directory) (disk.endOf root ++ [directory]) ∧
      (root.join directory).CanName file ∧ place = disk.endOf root ++ [directory] ++ [file] := by
  obtain ⟨leads, fits, rfl⟩ := leads_of_locate_join proper located
  rw [endOf_join named] at leads ⊢
  exact ⟨leads, fits, rfl⟩

/-- Below what is no directory nothing stands, where everything stands in directories. -/
theorem vacant_of_grounded {top : Location}
    (grounded : ∀ place name, top <+: place → disk.node? (place ++ [name]) ≠ none →
      disk.node? place = some .directory)
    (inside : top <+: place) (noDirectory : disk.node? place ≠ some .directory)
    (rest : List String) : disk.node? (place ++ name :: rest) = none := by
  induction rest using List.reverseRecOn with
  | nil =>
      by_contra stands
      exact noDirectory (grounded place name inside stands)
  | append_singleton rest last inductionHypothesis =>
      by_contra stands
      have split : place ++ name :: (rest ++ [last]) = place ++ name :: rest ++ [last] := by simp
      rw [split] at stands
      have above := grounded _ last (inside.trans (List.prefix_append _ _)) stands
      rw [inductionHypothesis] at above
      cases above

/-- Where a path ends depends on the working directory alone. -/
theorem endOf_congr {other : Disk} (home : other.home = disk.home) (path : Path) :
    other.endOf path = disk.endOf path := by
  rw [endOf, endOf, start_congr home]

/-- What stands below the place stands in directories and is properly named, and files two levels
below it are files of tables. -/
structure Orderly (disk : Disk) (root : Path) (top : Location) : Prop where
  ends : disk.endOf root = top
  grounded : ∀ place name, top <+: place → disk.node? (place ++ [name]) ≠ none →
    disk.node? place = some .directory
  named : ∀ rest, disk.node? (top ++ rest) ≠ none → ∀ name ∈ rest, IsFileName name
  files : ∀ database file content, disk.node? (top ++ [database] ++ [file]) = some (.file content) →
    ∃ table, IsName table ∧ IsFileOf table file

/-- Nothing that stands is changed or taken away. -/
structure Extends (before after : Disk) : Prop where
  home : after.home = before.home
  kept : ∀ place, before.node? place ≠ none → after.node? place = before.node? place

/-- Nothing is changed but that things at the place and below it are taken away. -/
structure ReducedAt (place : Location) (before after : Disk) : Prop where
  home : after.home = before.home
  outside : ∀ other, ¬ place <+: other → after.node? other = before.node? other
  kept : ∀ other, after.node? other ≠ none → after.node? other = before.node? other

namespace Extends

variable {before middle after : Disk}

theorem refl (disk : Disk) : Extends disk disk :=
  ⟨rfl, fun _ _ => rfl⟩

theorem trans (first : Extends before middle) (second : Extends middle after) :
    Extends before after := by
  refine ⟨second.home.trans first.home, fun place stands => ?_⟩
  have same := first.kept place stands
  rw [second.kept place (same ▸ stands), same]

theorem put (free : disk.node? place = none) (node : Node) :
    Extends disk (disk.put place node) := by
  refine ⟨home_put _ _ _, fun other stands => ?_⟩
  rw [node?_put _ (ne_nil_of_node? (noDirectory_of_free free)), if_neg]
  rintro rfl
  exact stands free

theorem keepsDirectories (extended : Extends before after) : KeepsDirectories before after := by
  refine ⟨extended.home, fun place directory => ?_⟩
  rw [extended.kept place (by rw [directory]; exact Option.some_ne_none _), directory]

end Extends

namespace ReducedAt

variable {before middle after : Disk}

theorem refl (place : Location) (disk : Disk) : ReducedAt place disk disk :=
  ⟨rfl, fun _ _ => rfl, fun _ _ => rfl⟩

theorem trans (first : ReducedAt place before middle) (second : ReducedAt place middle after) :
    ReducedAt place before after where
  home := second.home.trans first.home
  outside other apart := (second.outside other apart).trans (first.outside other apart)
  kept other stands := by
    have same := second.kept other stands
    exact same.trans (first.kept other (same ▸ stands))

theorem erase {gone : Location} (inside : place <+: gone) (below : gone ≠ []) :
    ReducedAt place disk (disk.erase gone) := by
  refine ⟨rfl, fun other apart => ?_, fun other stands => ?_⟩
  · rw [node?_erase _ below, if_neg]
    intro under
    exact apart (inside.trans (List.isPrefixOf_iff_prefix.mp under))
  · rw [node?_erase _ below] at stands ⊢
    split at stands
    · exact absurd rfl stands
    · rename_i apart
      rw [if_neg apart]

theorem clear {emptied : Location} (inside : place <+: emptied) :
    ReducedAt place disk (disk.clear emptied) := by
  refine ⟨rfl, fun other apart => ?_, fun other stands => ?_⟩
  · rw [node?_clear, if_neg]
    intro under
    rw [Bool.and_eq_true] at under
    exact apart (inside.trans (List.isPrefixOf_iff_prefix.mp under.1))
  · rw [node?_clear] at stands ⊢
    split at stands
    · exact absurd rfl stands
    · rename_i apart
      rw [if_neg apart]

end ReducedAt

/-- A root below which nothing stands is in order. -/
theorem IsBare.orderly {root : Path} (bare : disk.IsBare root) :
    disk.Orderly root (disk.endOf root) where
  ends := rfl
  grounded := by
    rintro _ name ⟨rest, rfl⟩ stands
    rw [List.append_assoc] at stands
    cases rest with
    | nil => exact absurd (bare name []) stands
    | cons first others => exact absurd (bare first (others ++ [name])) stands
  named rest stands := by
    cases rest with
    | nil => simp
    | cons first others => exact absurd (bare first others) stands
  files database file content stands := by
    rw [List.append_assoc, List.singleton_append, bare database [file]] at stands
    cases stands

namespace Orderly

variable {root : Path} {top : Location} {database file : String} {other : Disk}

/-- Only directories have something below them. -/
theorem vacant (orderly : disk.Orderly root top) (inside : top <+: place)
    (noDirectory : disk.node? place ≠ some .directory) (rest : List String) :
    disk.node? (place ++ name :: rest) = none :=
  vacant_of_grounded orderly.grounded inside noDirectory rest

/-- Anything can be taken away with what stands below it. -/
theorem reduced (orderly : disk.Orderly root top) (home : other.home = disk.home)
    (kept : ∀ place, other.node? place ≠ none → other.node? place = disk.node? place)
    (closed : ∀ place name, top <+: place → other.node? (place ++ [name]) ≠ none →
      disk.node? place ≠ none → other.node? place ≠ none) : other.Orderly root top where
  ends := (endOf_congr home root).trans orderly.ends
  grounded place name inside stands := by
    have before := orderly.grounded place name inside (kept _ stands ▸ stands)
    have still := closed place name inside stands (by simp [before])
    rw [kept place still, before]
  named rest stands := orderly.named rest (kept _ stands ▸ stands)
  files database file content stands := by
    refine orderly.files database file content ?_
    rw [← kept _ (by rw [stands]; exact Option.some_ne_none _), stands]

theorem erase (orderly : disk.Orderly root top) (below : place ≠ []) :
    (disk.erase place).Orderly root top := by
  have removed : ReducedAt [] disk (disk.erase place) := .erase List.nil_prefix below
  refine orderly.reduced rfl removed.kept fun parent name _ stands before => ?_
  rw [node?_erase _ below] at stands ⊢
  split at stands
  · exact absurd rfl stands
  · rename_i apart
    rw [if_neg]
    · exact before
    · intro under
      apply apart
      rw [List.isPrefixOf_iff_prefix] at under ⊢
      exact under.trans (List.prefix_append _ _)

theorem clear (orderly : disk.Orderly root top) (place : Location) :
    (disk.clear place).Orderly root top := by
  have removed : ReducedAt [] disk (disk.clear place) := .clear List.nil_prefix
  refine orderly.reduced rfl removed.kept fun parent name _ stands before => ?_
  rw [node?_clear] at stands ⊢
  split at stands
  · exact absurd rfl stands
  · rename_i apart
    rw [if_neg]
    · exact before
    · intro under
      apply apart
      simp only [Bool.and_eq_true, bne_iff_ne, List.isPrefixOf_iff_prefix] at under ⊢
      refine ⟨under.1.trans (List.prefix_append _ _), ?_⟩
      rintro rfl
      exact not_prefix_of_concat parent name under.1

/-- A directory is put where nothing stands, below another one. -/
theorem putDirectory (orderly : disk.Orderly root top) (free : disk.node? place = none)
    (proper : ∀ rest, place = top ++ rest → ∀ name ∈ rest, IsFileName name)
    (beside : ∀ parent name, top <+: parent → place = parent ++ [name] →
      disk.node? parent = some .directory) : (disk.put place .directory).Orderly root top := by
  have below := ne_nil_of_node? (noDirectory_of_free free)
  refine ⟨(endOf_congr (home_put _ _ _) root).trans orderly.ends, ?_, ?_, ?_⟩
  · intro parent name inside stands
    rw [node?_put _ below] at stands ⊢
    split
    · rfl
    · split at stands
      · rename_i here
        exact beside parent name inside here.symm
      · exact orderly.grounded parent name inside stands
  · intro rest stands
    rw [node?_put _ below] at stands
    split at stands
    · rename_i here
      exact proper rest here.symm
    · exact orderly.named rest stands
  · intro database file content stands
    rw [node?_put _ below] at stands
    split at stands
    · cases stands
    · exact orderly.files database file content stands

/-- A file of a table is put into a directory of the store, where no directory stands. -/
theorem putFile (orderly : disk.Orderly root top)
    (directory : disk.node? (top ++ [database]) = some .directory)
    (noDirectory : disk.node? (top ++ [database] ++ [file]) ≠ some .directory)
    (isFile : ∃ table, IsName table ∧ IsFileOf table file)
    (content : ByteArray) :
    (disk.put (top ++ [database] ++ [file]) (.file content)).Orderly root top := by
  have below := ne_nil_of_node? noDirectory
  refine ⟨(endOf_congr (home_put _ _ _) root).trans orderly.ends, ?_, ?_, ?_⟩
  · intro parent name inside stands
    rw [node?_put _ below] at stands
    have apart : parent ≠ top ++ [database] ++ [file] := by
      rintro rfl
      rw [if_neg (by simp), orderly.vacant inside noDirectory []] at stands
      exact stands rfl
    rw [node?_put _ below, if_neg apart]
    split at stands
    · rename_i here
      rw [(List.append_inj' here rfl).1, directory]
    · exact orderly.grounded parent name inside stands
  · intro rest stands
    rw [node?_put _ below] at stands
    split at stands
    · rename_i here
      rw [List.append_assoc] at here
      rw [List.append_cancel_left here]
      intro name member
      rcases List.mem_pair.mp member with rfl | rfl
      · exact orderly.named [name] (by simp [directory]) name List.mem_cons_self
      · obtain ⟨table, named, isFile⟩ := isFile
        exact isFile.isFileName named
    · exact orderly.named rest stands
  · intro another other content stands
    rw [node?_put _ below] at stands
    split at stands
    · rename_i here
      rw [List.singleton_inj.mp (List.append_inj' here rfl).2]
      exact isFile
    · exact orderly.files another other content stands

/-- The directory of a database lies below the root, wherever that leads. -/
theorem eq_of_locate (orderly : disk.Orderly root top) (named : IsName database)
    (located : disk.locate (root.join database) = .ok place) : place = top ++ [database] := by
  rw [(leads_of_locate_join named.isFileName located).2.2, orderly.ends]

theorem isFileName_of_mem_names (orderly : disk.Orderly root top)
    (member : file ∈ disk.names (top ++ [database])) : IsFileName file := by
  have stands := mem_names_iff.mp member
  rw [List.append_assoc] at stands
  exact orderly.named _ stands file (by simp)

/-- The root leads on to the directory of a database in which something stands. -/
theorem leads_of_stands (orderly : disk.Orderly root top) (leads : disk.Leads root top)
    (named : IsName database) (short : database.utf8ByteSize ≤ maxNameSize)
    (stands : disk.node? (top ++ [database] ++ [file]) ≠ none) :
    disk.Leads (root.join database) (top ++ [database]) :=
  leads.join named.isFileName short
    (orderly.grounded _ file (List.prefix_append _ _) stands)

/-- The place of a file of a table is told by its path alone, and its directory stands. -/
theorem leads_of_locate (orderly : disk.Orderly root top) (named : IsName database)
    (proper : IsFileName file)
    (located : disk.locate ((root.join database).join file) = .ok place) :
    disk.Leads (root.join database) (top ++ [database]) ∧ (root.join database).CanName file ∧
      place = top ++ [database] ++ [file] := by
  rw [← orderly.ends]
  exact leads_of_locate_entry named.isFileName proper located

end Orderly

end Disk

end TextTables
