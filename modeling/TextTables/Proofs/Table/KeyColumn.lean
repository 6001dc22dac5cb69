import TextTables.Proofs.Table.Regular

/-!
# The column of the primary key

Where the first column is named as the primary key, no alteration and no update reaches it: the
guards go by the name, and the name is found in the first place. The header and all cells of that
column stay what they were.
-/

namespace TextTables.Table

open Text

/-- The first column is that of the primary key, in whatever letter case. -/
def Keyed (table : Table) : Prop :=
  ∃ column, table.columns.head? = some column ∧ sameIgnoringCase column primaryKey

/-- The first column has the same name and the same cells in both tables. -/
structure SameKeyColumn (table changed : Table) : Prop where
  header : changed.columns.head? = table.columns.head?
  cells : changed.rows.map List.head? = table.rows.map List.head?

variable {table changed : Table} {name : String}

theorem Keyed.of_sameKeyColumn (keyed : table.Keyed) (same : SameKeyColumn table changed) :
    changed.Keyed := by
  obtain ⟨column, first, spelled⟩ := keyed
  exact ⟨column, same.header.trans first, spelled⟩

theorem Keyed.columns_ne_nil (keyed : table.Keyed) : table.columns ≠ [] := by
  obtain ⟨column, first, -⟩ := keyed
  rintro empty
  rw [empty] at first
  cases first

/-- Any name but that of the primary key is found behind the first column. -/
theorem Keyed.columnIndex?_ne_zero (keyed : table.Keyed)
    (other : ¬ sameIgnoringCase name primaryKey) {index : Nat}
    (found : table.columnIndex? name = some index) : index ≠ 0 := by
  rintro rfl
  obtain ⟨column, first, spelled⟩ := keyed
  obtain ⟨bound, matched, -⟩ := List.findIdx?_eq_some_iff_getElem.mp found
  rw [List.head?_eq_getElem?, List.getElem?_eq_getElem bound] at first
  rw [Option.some.inj first, sameIgnoringCase_comm] at matched
  exact other (sameIgnoringCase_trans matched spelled)

theorem sameKeyColumn_addColumn (regular : table.Regular) (keyed : table.Keyed)
    (added : table.addColumn name = .ok changed) : SameKeyColumn table changed := by
  obtain ⟨-, -, rfl⟩ := addColumn_eq_ok added
  refine ⟨List.head?_append_of_ne_nil _ keyed.columns_ne_nil, ?_⟩
  rw [List.map_map]
  refine List.map_congr_left fun row member => List.head?_append_of_ne_nil _ ?_
  rintro rfl
  have wide := regular.wide [] member
  exact keyed.columns_ne_nil (List.length_eq_zero_iff.mp wide.symm)

theorem sameKeyColumn_dropColumn (keyed : table.Keyed)
    (dropped : table.dropColumn name = .ok changed) : SameKeyColumn table changed := by
  obtain ⟨other, index, found, rfl⟩ := dropColumn_eq_ok dropped
  have behind := keyed.columnIndex?_ne_zero other found
  have kept : ∀ texts : List String, (texts.eraseIdx index).head? = texts.head? := by
    intro texts
    cases texts with
    | nil => rfl
    | cons first rest =>
        cases index with
        | zero => exact absurd rfl behind
        | succ index => rfl
  refine ⟨kept _, ?_⟩
  rw [List.map_map]
  exact List.map_congr_left fun row _ => kept row

/-- Every place that an update assigns is behind the first column. -/
theorem Keyed.targets_ne_zero (keyed : table.Keyed) {assignments : List (String × Literal)}
    {targets : List (Nat × String)} (located : assignments.mapM table.target = .ok targets) :
    ∀ target ∈ targets, target.1 ≠ 0 := by
  intro target member
  obtain ⟨assignment, -, found⟩ := Work.exists_of_mem_mapM located member
  obtain ⟨other, index, -⟩ := target_eq_ok found
  exact keyed.columnIndex?_ne_zero other index

theorem sameKeyColumn_update (keyed : table.Keyed) {assignments : List (String × Literal)}
    {condition : Condition} (updated : table.update assignments condition = .ok changed) :
    SameKeyColumn table changed := by
  obtain ⟨targets, mask, located, evaluated, replaced⟩ := update_eq_ok updated
  obtain ⟨-, rfl⟩ := replaceRows_eq_ok replaced
  have behind := keyed.targets_ne_zero located
  have same : ∀ marked ∈ table.rows.zip mask,
      (if marked.2 then assignCells targets marked.1 else marked.1).head? = marked.1.head? := by
    intro marked _
    split
    · exact head?_assignCells behind marked.1
    · rfl
  have whole : (table.rows.zip mask).map Prod.fst = table.rows :=
    List.map_fst_zip (Work.length_of_mapM evaluated).ge
  refine ⟨rfl, ?_⟩
  calc ((table.rows.zip mask).map fun marked =>
        if marked.2 then assignCells targets marked.1 else marked.1).map List.head?
      = (table.rows.zip mask).map fun marked => marked.1.head? := by
        rw [List.map_map]
        exact List.map_congr_left same
    _ = ((table.rows.zip mask).map Prod.fst).map List.head? := by rw [List.map_map]; rfl
    _ = table.rows.map List.head? := by rw [whole]

end TextTables.Table
