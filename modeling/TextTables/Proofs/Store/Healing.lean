import TextTables.Proofs.Store.Upkeep

/-!
# Second files that are lost

From outside, the files with the last primary keys can be taken out of the directory of a database.
A table that lost its second file is offered all the same, with as many keys given out as it has
rows.
-/

namespace TextTables

open Location Text

namespace Disk

/-- Nothing is changed but that files with last primary keys are gone from the directory. -/
structure LosesCounters (place : Location) (before after : Disk) : Prop where
  home : after.home = before.home
  lost : ∀ other, after.node? other = before.node? other ∨ (after.node? other = none ∧
    ∃ name content, other = place ++ [name ++ counterEnding] ∧
      before.node? other = some (.file content))

/-- The last primary key of a table as it is read: if its file is lost, the number of rows. -/
def counterOf (disk : Disk) (place : Location) (table : Table) : Nat :=
  match disk.node? (place ++ [table.name ++ counterEnding]) with
  | none => table.rows.length
  | some _ => table.lastKey

namespace LosesCounters

variable {root : Path} {top place : Location} {disk after : Disk} {database name : String}

theorem orderly (loses : LosesCounters place disk after) (orderly : disk.Orderly root top) :
    after.Orderly root top := by
  have kept : ∀ other, after.node? other ≠ none → after.node? other = disk.node? other :=
    fun other stands => (loses.lost other).resolve_right fun gone => stands gone.1
  refine orderly.reduced loses.home kept fun parent name inside stands _ gone => ?_
  -- Below a file nothing stands, so that what still has something in it was not lost.
  have directory := orderly.grounded parent name inside (kept _ stands ▸ stands)
  rcases loses.lost parent with same | ⟨-, _, content, -, file⟩
  · rw [gone, directory] at same
    cases same
  · rw [directory] at file
    cases file

theorem offers {directory : Path} {table : Table} (loses : LosesCounters place disk after)
    (stores : disk.Stores directory place table) :
    after.Offers directory place table { table with lastKey := after.counterOf place table } := by
  refine ⟨stores.sound, stores.fits, ?_, ?_⟩
  · rcases loses.lost (place ++ [table.name ++ tableEnding]) with same |
      ⟨-, other, content, spelled, -⟩
    · rw [same, stores.tableFile]
    · have file := List.singleton_inj.mp (List.append_inj' spelled rfl).2
      exact absurd file (table_ne_counter stores.sound.named other)
  · unfold counterOf
    rcases loses.lost (place ++ [table.name ++ counterEnding]) with same | ⟨gone, -⟩
    · left
      rw [same, stores.counterFile]
      exact ⟨rfl, rfl⟩
    · right
      rw [gone]
      exact ⟨rfl, rfl⟩

/-- One such file is removed. -/
theorem erase (orderly : disk.Orderly root top) (inside : top <+: place)
    (stands : disk.node? (place ++ [name ++ counterEnding]) ≠ none)
    (noDirectory : disk.node? (place ++ [name ++ counterEnding]) ≠ some .directory) :
    LosesCounters place disk (disk.erase (place ++ [name ++ counterEnding])) := by
  refine ⟨rfl, fun other => ?_⟩
  rw [node?_erase _ (by simp)]
  split
  · rename_i under
    obtain ⟨rest, rfl⟩ := List.isPrefixOf_iff_prefix.mp under
    cases rest with
    | nil =>
        rw [List.append_nil]
        cases found : disk.node? (place ++ [name ++ counterEnding]) with
        | none => exact absurd found stands
        | some node =>
            cases node with
            | directory => exact absurd found noDirectory
            | file content => exact .inr ⟨rfl, name, content, rfl, rfl⟩
    | cons first others =>
        left
        exact (orderly.vacant (inside.trans (List.prefix_append _ _)) noDirectory others).symm
  · exact .inl rfl

end LosesCounters

end Disk

end TextTables
