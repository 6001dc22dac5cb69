import TextTables.Proofs.Disk.Entries
import TextTables.Proofs.Disk.Following

/-!
# Changes below a place

Work on a database reaches no further than the place of its directory. What stands elsewhere is
as before, and paths that do not go through that place lead where they led.
-/

namespace TextTables

open Location

/-- No entry of a place stands above it. -/
theorem Location.not_prefix_of_concat (place : Location) (name : String) :
    ¬ place ++ [name] <+: place := by
  intro above
  have longer := above.length_le
  rw [List.length_append, List.length_singleton] at longer
  omega

namespace Disk

/-- One disk is made from another by work at a place and below it. -/
structure ChangedAt (place : Location) (before after : Disk) : Prop where
  home : after.home = before.home
  outside : ∀ other, ¬ place <+: other → after.node? other = before.node? other
  tidy : ∀ top, before.Tidy top → after.Tidy top

namespace ChangedAt

variable {place : Location} {before middle after : Disk}

theorem refl (place : Location) (disk : Disk) : ChangedAt place disk disk :=
  ⟨rfl, fun _ _ => rfl, fun _ tidy => tidy⟩

theorem trans (first : ChangedAt place before middle) (second : ChangedAt place middle after) :
    ChangedAt place before after where
  home := second.home.trans first.home
  outside other apart := (second.outside other apart).trans (first.outside other apart)
  tidy top tidy := second.tidy top (first.tidy top tidy)

theorem put (disk : Disk) {parent : Location} {name : String}
    (inside : place <+: parent ++ [name]) (node : Node) :
    ChangedAt place disk (disk.put (parent ++ [name]) node) where
  home := by
    unfold Disk.put
    split <;> rfl
  outside other apart := by
    rw [node?_put disk (by simp) node other, if_neg]
    rintro rfl
    exact apart inside
  tidy top tidy := tidy.put parent name node

theorem erase (disk : Disk) {gone : Location} (below : gone ≠ []) (inside : place <+: gone) :
    ChangedAt place disk (disk.erase gone) where
  home := rfl
  outside other apart := by
    rw [node?_erase disk below, if_neg]
    intro under
    exact apart (inside.trans (List.isPrefixOf_iff_prefix.mp under))
  tidy top tidy := tidy.erase gone

theorem weaken {wider : Location} (changed : ChangedAt place before after)
    (inside : wider <+: place) : ChangedAt wider before after where
  home := changed.home
  outside other apart := changed.outside other fun under => apart (inside.trans under)
  tidy := changed.tidy

end ChangedAt

/-- Work below a place that leaves the place itself as it was. -/
structure ChangedBelow (place : Location) (before after : Disk) : Prop
    extends ChangedAt place before after where
  self : after.node? place = before.node? place

namespace ChangedBelow

variable {place : Location} {before middle after : Disk}

theorem trans (first : ChangedBelow place before middle)
    (second : ChangedBelow place middle after) : ChangedBelow place before after :=
  ⟨first.toChangedAt.trans second.toChangedAt, second.self.trans first.self⟩

theorem put (disk : Disk) (place : Location) (name : String) (node : Node) :
    ChangedBelow place disk (disk.put (place ++ [name]) node) where
  toChangedAt := ChangedAt.put disk (List.prefix_append _ _) node
  self := by
    rw [node?_put disk (by simp), if_neg (by simp)]

theorem erase (disk : Disk) (place : Location) (name : String) :
    ChangedBelow place disk (disk.erase (place ++ [name])) where
  toChangedAt := ChangedAt.erase disk (by simp) (List.prefix_append _ _)
  self := by
    rw [node?_erase disk (by simp), if_neg]
    rw [List.isPrefixOf_iff_prefix]
    exact not_prefix_of_concat place name

end ChangedBelow

/-- The path leads to a directory at the place, and through nothing below it. -/
structure LeadsStraight (disk : Disk) (path : Path) (place : Location) : Prop
    extends disk.Leads path place where
  straight : ∀ passed ∈ trail (disk.start path) path.segments, place <+: passed → passed = place

theorem start_congr {disk other : Disk} (home : other.home = disk.home) (path : Path) :
    other.start path = disk.start path := by
  simp [start, home]

namespace LeadsStraight

variable {disk other : Disk} {path : Path} {place : Location}

/-- Work at the entries of the directory leaves the path as it is. -/
theorem changed (leads : disk.LeadsStraight path place) {name : String}
    (changed : ChangedAt (place ++ [name]) disk other) : other.LeadsStraight path place := by
  have starts := start_congr changed.home path
  have apart : ∀ passed ∈ trail (disk.start path) path.segments, ¬ place ++ [name] <+: passed := by
    intro passed member under
    have same := leads.straight passed member ((List.prefix_append place [name]).trans under)
    exact not_prefix_of_concat place name (same ▸ under)
  refine
    { zeroFree := leads.zeroFree, reached := ?_, directory := ?_, straight := ?_ }
  · rw [starts, ← leads.reached]
    exact follow_congr fun passed member => changed.outside passed (apart passed member)
  · rw [changed.outside place, leads.directory]
    exact not_prefix_of_concat place name
  · rw [starts]
    exact leads.straight

/-- A directory in a directory is led to as straight. -/
theorem join (leads : disk.LeadsStraight path place) {name : String} (proper : IsFileName name)
    (short : name.utf8ByteSize ≤ maxNameSize)
    (inner : disk.node? (place ++ [name]) = some .directory) :
    disk.LeadsStraight (path.join name) (place ++ [name]) := by
  refine { leads.toLeads.join proper short inner with straight := ?_ }
  rw [start_join proper, Path.join_eq proper.slashFree]
  intro passed member under
  rcases mem_trail_concat member with earlier | last
  · have same := leads.straight passed (Path.mem_trail_front earlier)
      ((List.prefix_append place [name]).trans under)
    exact absurd (same ▸ under) (not_prefix_of_concat place name)
  · rw [last, reach_eq_of_follow (Path.follow_front leads.reached), enter_name proper]

end LeadsStraight

end Disk

end TextTables
