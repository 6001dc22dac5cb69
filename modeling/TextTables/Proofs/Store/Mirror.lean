import TextTables.Proofs.Store.Directories
import TextTables.Proofs.Store.Loading

/-!
# Databases and their directories

Seen from outside, a store keeps a shelf of tables for each database. The disk mirrors it: the
directory of a database holds its shelf, and nothing stands under the names of the others. Every
operation of the store changes one shelf, and the disk goes on to mirror the change.
-/

namespace TextTables

/-- The databases of a store by name. -/
abbrev World := String → Option Shelf

namespace Disk

/-- What stands under a name in the root of a store: the directory of a database, or nothing. -/
def Houses (disk : Disk) (root : Path) (top : Location) (name : String) : Option Shelf → Prop
  | none => ∀ rest, disk.node? (top ++ name :: rest) = none
  | some shelf => (IsName name ∧ isReserved name = false ∧ root.CanName name) ∧
      disk.node? (top ++ [name]) = some .directory ∧
      disk.Holds (root.join name) (top ++ [name]) shelf

/-- The root of a store leads to its place, where the databases of the world stand. -/
structure Mirrors (disk : Disk) (root : Path) (top : Location) (world : World) : Prop where
  leads : disk.LeadsStraight root top
  tidy : disk.Tidy top
  houses : ∀ name, disk.Houses root top name (world name)

variable {disk after : Disk} {root : Path} {top : Location} {world : World} {name : String}
  {shelf : Shelf}

theorem Houses.congr {content : Option Shelf} (houses : disk.Houses root top name content)
    (same : ∀ rest, after.node? (top ++ name :: rest) = disk.node? (top ++ name :: rest)) :
    after.Houses root top name content := by
  cases content with
  | none => exact fun rest => (same rest).trans (houses rest)
  | some shelf =>
      obtain ⟨named, directory, holds⟩ := houses
      refine ⟨named, (same []).trans directory, holds.congr fun file rest => ?_⟩
      rw [List.append_assoc]
      exact same (file :: rest)

namespace Mirrors

/-- Work on one database leaves the others where they are. -/
theorem changed (mirrors : disk.Mirrors root top world)
    (changed : ChangedAt (top ++ [name]) disk after) {content : Option Shelf}
    (houses : after.Houses root top name content) :
    after.Mirrors root top (Function.update world name content) where
  leads := mirrors.leads.changed changed
  tidy := changed.tidy top mirrors.tidy
  houses other := by
    by_cases here : other = name
    · subst here
      rw [Function.update_self]
      exact houses
    · rw [Function.update_of_ne here]
      refine (mirrors.houses other).congr fun rest => changed.outside _ ?_
      rintro ⟨deeper, spelled⟩
      rw [List.append_assoc] at spelled
      exact here (List.cons.inj (List.append_cancel_left spelled)).1.symm

theorem houses_some (mirrors : disk.Mirrors root top world) (present : world name = some shelf) :
    (IsName name ∧ isReserved name = false ∧ root.CanName name) ∧
      disk.node? (top ++ [name]) = some .directory ∧
      disk.Holds (root.join name) (top ++ [name]) shelf := by
  have houses := mirrors.houses name
  rw [present] at houses
  exact houses

/-- Where there is no database of a name, its path leads to no directory. -/
theorem not_isDirectory (mirrors : disk.Mirrors root top world) (named : IsName name)
    (absent : world name = none) : disk.isDirectory (root.join name) = false := by
  have houses := mirrors.houses name
  rw [absent] at houses
  have located := mirrors.leads.locate_join named.isFileName
  by_cases fits : root.CanName name
  · simp [isDirectory, lookup?, located, fits, houses []]
  · simp [isDirectory, lookup?, located, fits]

/-- The directory of a database is led to as straight as the root. -/
theorem leads_database (mirrors : disk.Mirrors root top world)
    (present : world name = some shelf) :
    disk.LeadsStraight (root.join name) (top ++ [name]) := by
  obtain ⟨⟨named, -, fits⟩, directory, -⟩ := mirrors.houses_some present
  exact mirrors.leads.join named.isFileName fits.1 directory

/-- Work inside the directory of a database leaves the directory there. -/
theorem changed_inside (mirrors : disk.Mirrors root top world) (present : world name = some shelf)
    (changed : ChangedBelow (top ++ [name]) disk after) {next : Shelf}
    (holds : after.Holds (root.join name) (top ++ [name]) next) :
    after.Mirrors root top (Function.update world name (some next)) := by
  obtain ⟨named, directory, -⟩ := mirrors.houses_some present
  exact mirrors.changed changed.toChangedAt ⟨named, changed.self.trans directory, holds⟩

end Mirrors

end Disk

end TextTables
