import Mathlib
import TextTables.Proofs.Disk.Changes
import TextTables.Proofs.Disk.Standing

/-!
# Disks that agree off a zone

Two disks agree off a zone if they have the same entries outside it, in the same order. A change in
the zone leaves a disk that agrees with the one before, and one change made to two disks that agree
leaves two that agree. Off the zone the disks have the same nodes and directories, and a path that
keeps off it leads to the same place on both.
-/

namespace TextTables.Disk

open Location

open Classical in
/-- The entries outside the zone, in their order. -/
noncomputable def entriesOff (disk : Disk) (zone : Set Location) : List (Location × Node) :=
  disk.entries.filter fun entry => entry.1 ∉ zone

structure AgreeOff (zone : Set Location) (first second : Disk) : Prop where
  home : second.home = first.home
  entries : second.entriesOff zone = first.entriesOff zone

variable {zone wider : Set Location} {disk first second third : Disk} {place : Location}

theorem lookup_entriesOff (disk : Disk) (apart : place ∉ zone) :
    (disk.entriesOff zone).lookup place = disk.entries.lookup place := by
  classical
  have kept := lookup_filter disk.entries (fun place => decide (place ∉ zone)) place
  simpa [entriesOff, apart] using kept

theorem entriesOff_put (disk : Disk) (place : Location) (node : Node) (apart : place ∉ zone) :
    (disk.put place node).entriesOff zone =
      if ((disk.entriesOff zone).lookup place).isSome then
        (disk.entriesOff zone).map fun entry => if entry.1 = place then (place, node) else entry
      else disk.entriesOff zone ++ [(place, node)] := by
  classical
  rw [lookup_entriesOff disk apart, put]
  split
  · simp only [entriesOff, List.filter_map]
    congr 1
    apply List.filter_congr
    intro entry _
    by_cases here : entry.1 = place <;> simp [here, apart]
  · simp [entriesOff, apart]

/-- What is taken away by a test is taken away outside the zone. -/
theorem entriesOff_filter (test : Location × Node → Bool) (disk : Disk) :
    entriesOff ⟨disk.home, disk.entries.filter test⟩ zone = (disk.entriesOff zone).filter test := by
  classical
  simp only [entriesOff, List.filter_filter, Bool.and_comm]

namespace AgreeOff

theorem refl (zone : Set Location) (disk : Disk) : AgreeOff zone disk disk :=
  ⟨rfl, rfl⟩

theorem symm (agree : AgreeOff zone first second) : AgreeOff zone second first :=
  ⟨agree.home.symm, agree.entries.symm⟩

theorem trans (left : AgreeOff zone first second) (right : AgreeOff zone second third) :
    AgreeOff zone first third :=
  ⟨right.home.trans left.home, right.entries.trans left.entries⟩

theorem weaken (agree : AgreeOff zone first second) (inside : zone ⊆ wider) :
    AgreeOff wider first second := by
  classical
  have narrow : ∀ disk : Disk, disk.entriesOff wider =
      (disk.entriesOff zone).filter fun entry => entry.1 ∉ wider := by
    intro disk
    simp only [entriesOff, List.filter_filter]
    apply List.filter_congr
    intro entry _
    by_cases off : entry.1 ∈ wider
    · simp [off]
    · have apart : entry.1 ∉ zone := fun under => off (inside under)
      simp [off, apart]
  exact ⟨agree.home, by rw [narrow, narrow, agree.entries]⟩

/-! ### What agreement tells -/

theorem node? (agree : AgreeOff zone first second) (apart : place ∉ zone) :
    second.node? place = first.node? place := by
  unfold Disk.node?
  rw [← lookup_entriesOff first apart, ← lookup_entriesOff second apart, agree.entries]

theorem names (agree : AgreeOff zone first second) (apart : ∀ name, place ++ [name] ∉ zone) :
    second.names place = first.names place := by
  classical
  have listed : ∀ disk : Disk, disk.names place =
      (disk.entriesOff zone).filterMap (childName? place) := by
    intro disk
    have kept := filterMap_childName?_filter disk.entries (fun place => decide (place ∉ zone)) place
    simpa [entriesOff, Disk.names, apart] using kept.symm
  rw [listed, listed, agree.entries]

theorem start (agree : AgreeOff zone first second) (path : Path) :
    second.start path = first.start path :=
  start_congr agree.home path

theorem locate (agree : AgreeOff zone first second) {path : Path}
    (apart : ∀ passed ∈ trail (first.start path) path.segments, passed ∉ zone) :
    second.locate path = first.locate path := by
  unfold Disk.locate
  rw [agree.start]
  split
  · rfl
  · exact follow_congr fun passed member => agree.node? (apart passed member)

/-! ### Changes in the zone -/

theorem of_put (inside : place ∈ zone) (node : Node) : AgreeOff zone disk (disk.put place node) := by
  classical
  refine ⟨home_put _ _ _, ?_⟩
  unfold put
  split
  · have same : ∀ entry : Location × Node, (if entry.1 = place then (place, node) else entry).1 =
        entry.1 := by
      intro entry
      split
      · rename_i here
        exact here.symm
      · rfl
    simp only [entriesOff, List.filter_map, Function.comp_def, same]
    refine (List.map_congr_left fun entry member => if_neg ?_).trans (List.map_id _)
    rintro rfl
    simp [inside] at member
  · simp [entriesOff, inside]

/-- Entries that are taken away stand in the zone. -/
theorem of_filter {test : Location × Node → Bool}
    (inside : ∀ entry ∈ disk.entries, test entry = false → entry.1 ∈ zone) :
    AgreeOff zone disk ⟨disk.home, disk.entries.filter test⟩ := by
  classical
  refine ⟨rfl, ?_⟩
  simp only [entriesOff, List.filter_filter]
  apply List.filter_congr
  intro entry member
  cases kept : test entry with
  | true => simp
  | false => simp [inside entry member kept]

theorem node?_ne_none_of_mem {entry : Location × Node} (member : entry ∈ disk.entries) :
    disk.node? entry.1 ≠ none := by
  unfold Disk.node?
  split
  · exact nofun
  · exact (lookup_ne_none_iff disk.entries entry.1).mpr ⟨entry, member, rfl⟩

theorem of_erase (inside : ∀ other, place <+: other → disk.node? other ≠ none → other ∈ zone) :
    AgreeOff zone disk (disk.erase place) := by
  apply of_filter
  intro entry member gone
  have under : place <+: entry.1 := by simpa using gone
  exact inside entry.1 under (node?_ne_none_of_mem member)

theorem of_clear (inside : ∀ other, place <+: other → disk.node? other ≠ none → other ∈ zone) :
    AgreeOff zone disk (disk.clear place) := by
  apply of_filter
  intro entry member gone
  have under : place <+: entry.1 := by
    simp only [Bool.not_eq_false', Bool.and_eq_true, List.isPrefixOf_iff_prefix] at gone
    exact gone.1
  exact inside entry.1 under (node?_ne_none_of_mem member)

/-! ### One change made to both disks -/

theorem put (agree : AgreeOff zone first second) (place : Location) (node : Node) :
    AgreeOff zone (first.put place node) (second.put place node) := by
  by_cases inside : place ∈ zone
  · exact ((of_put inside node).symm.trans agree).trans (of_put inside node)
  · refine ⟨by rw [home_put, home_put, agree.home], ?_⟩
    rw [entriesOff_put _ _ _ inside, entriesOff_put _ _ _ inside, agree.entries]

theorem erase (agree : AgreeOff zone first second) (place : Location) :
    AgreeOff zone (first.erase place) (second.erase place) := by
  refine ⟨agree.home, ?_⟩
  unfold Disk.erase
  rw [entriesOff_filter, entriesOff_filter, agree.entries]

theorem clear (agree : AgreeOff zone first second) (place : Location) :
    AgreeOff zone (first.clear place) (second.clear place) := by
  refine ⟨agree.home, ?_⟩
  unfold Disk.clear
  rw [entriesOff_filter, entriesOff_filter, agree.entries]

end AgreeOff

end TextTables.Disk
