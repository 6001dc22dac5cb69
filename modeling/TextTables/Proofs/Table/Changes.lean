import TextTables.Proofs.Table.Columns
import TextTables.Proofs.Work
import TextTables.Table.Change

/-!
# What changes make of a table

Each change of a table that is accepted says what the changed table is, and under which
conditions. A change replaces the rows one for one, leaves some of them out, or appends one.
-/

namespace TextTables

open Text

namespace Table

theorem checkWidth_eq_ok_iff {table : Table} {width : Nat} :
    table.checkWidth width = .ok () ↔ width = table.columns.length := by
  unfold checkWidth
  split
  · simp only [reduceCtorEq, false_iff]
    omega
  · split
    · simp only [reduceCtorEq, false_iff]
      omega
    · simp only [true_iff]
      omega

theorem checkWidths_eq_ok_iff {table : Table} {rows : List Row} :
    (rows.forM fun row => table.checkWidth row.length) = .ok () ↔
      ∀ row ∈ rows, row.length = table.columns.length := by
  induction rows with
  | nil => simp [pure, Except.pure]
  | cons row rest inductionHypothesis =>
      rw [List.forM_eq_forM] at inductionHypothesis ⊢
      rw [List.forM_cons]
      cases checked : table.checkWidth row.length with
      | error error =>
          have narrow : row.length ≠ table.columns.length := by
            intro wide
            rw [checkWidth_eq_ok_iff.mpr wide] at checked
            cases checked
          simp [bind, Except.bind, narrow]
      | ok _ =>
          have wide := checkWidth_eq_ok_iff.mp checked
          simpa [bind, Except.bind, wide] using inductionHypothesis

theorem replaceRows_ok {table : Table} {rows : List Row}
    (wide : ∀ row ∈ rows, row.length = table.columns.length) :
    table.replaceRows rows = .ok { table with rows := rows } := by
  have checked := checkWidths_eq_ok_iff.mpr wide
  unfold replaceRows
  rw [checked]
  rfl

theorem replaceRows_eq_ok {table changed : Table} {rows : List Row}
    (replaced : table.replaceRows rows = .ok changed) :
    (∀ row ∈ rows, row.length = table.columns.length) ∧ changed = { table with rows := rows } := by
  unfold replaceRows at replaced
  cases checked : rows.forM fun row => table.checkWidth row.length with
  | error error => simp [checked, bind, Except.bind] at replaced
  | ok _ =>
      rw [checked] at replaced
      cases replaced
      exact ⟨checkWidths_eq_ok_iff.mp checked, rfl⟩

theorem addRow_eq_ok {table changed : Table} {row : Row} (added : table.addRow row = .ok changed) :
    row.length = table.columns.length ∧ changed = { table with rows := table.rows ++ [row] } := by
  unfold addRow at added
  cases checked : table.checkWidth row.length with
  | error error => simp [checked, bind, Except.bind] at added
  | ok _ =>
      rw [checked] at added
      cases added
      exact ⟨checkWidth_eq_ok_iff.mp checked, rfl⟩

theorem insert_eq_ok {table changed : Table} {cells : Row}
    (inserted : table.insert cells = .ok changed) :
    cells.length + 1 = table.columns.length ∧
      changed = { table with
        rows := table.rows ++ [toString (table.lastKey + 1) :: cells]
        lastKey := table.lastKey + 1 } := by
  unfold insert at inserted
  cases checked : table.checkWidth (cells.length + 1) with
  | error error => simp [checked, bind, Except.bind] at inserted
  | ok _ =>
      rw [checked] at inserted
      cases inserted
      exact ⟨checkWidth_eq_ok_iff.mp checked, rfl⟩

theorem dropColumn_eq_ok {table changed : Table} {name : String}
    (dropped : table.dropColumn name = .ok changed) :
    ¬ sameIgnoringCase name primaryKey ∧ ∃ index, table.columnIndex? name = some index ∧
      changed = { table with
        columns := table.columns.eraseIdx index
        rows := table.rows.map fun row => row.eraseIdx index } := by
  unfold dropColumn at dropped
  split at dropped
  · cases dropped
  · rename_i other
    split at dropped
    · cases dropped
    · rename_i index found
      cases dropped
      exact ⟨other, index, found, rfl⟩

theorem target_eq_ok {table : Table} {assignment : String × Literal} {target : Nat × String}
    (found : table.target assignment = .ok target) :
    ¬ sameIgnoringCase assignment.1 primaryKey ∧
      table.columnIndex? assignment.1 = some target.1 ∧ target.2 = assignment.2.text := by
  obtain ⟨column, literal⟩ := assignment
  simp only [Table.target] at found
  split at found
  · cases found
  · rename_i other
    split at found
    · cases found
    · cases required : table.requireColumn column with
      | error error => simp [required, bind, Except.bind] at found
      | ok index =>
          have same : (index, literal.text) = target := by
            simpa [required, bind, Except.bind, pure, Except.pure] using found
          subst same
          exact ⟨other, requireColumn_eq_ok_iff.mp required, rfl⟩

/-- An update assigns the same targets in the marked rows. -/
theorem update_eq_ok {table changed : Table} {assignments : List (String × Literal)}
    {condition : Condition} (updated : table.update assignments condition = .ok changed) :
    ∃ targets mask, assignments.mapM table.target = .ok targets ∧
      condition.mask table = .ok mask ∧
      table.replaceRows ((table.rows.zip mask).map fun marked =>
        if marked.2 then assignCells targets marked.1 else marked.1) = .ok changed := by
  unfold update at updated
  cases located : assignments.mapM table.target with
  | error error => simp [located, bind, Except.bind] at updated
  | ok targets =>
      cases evaluated : condition.mask table with
      | error error => simp [located, evaluated, bind, Except.bind] at updated
      | ok mask =>
          refine ⟨targets, mask, rfl, rfl, ?_⟩
          simpa [located, evaluated, bind, Except.bind] using updated

theorem delete_eq_ok {table changed : Table} {condition : Condition}
    (deleted : table.delete condition = .ok changed) :
    ∃ mask, condition.mask table = .ok mask ∧
      table.replaceRows (unmarked mask table.rows) = .ok changed := by
  unfold delete at deleted
  cases evaluated : condition.mask table with
  | error error => simp [evaluated, bind, Except.bind] at deleted
  | ok mask => exact ⟨mask, rfl, by simpa [evaluated, bind, Except.bind] using deleted⟩

theorem map_fst_zip_sublist (rows : List Row) (mask : List Bool) :
    ((rows.zip mask).map Prod.fst).Sublist rows := by
  induction rows generalizing mask with
  | nil => simp
  | cons row rest inductionHypothesis =>
      cases mask with
      | nil => simp
      | cons mark marks => simpa using inductionHypothesis marks

theorem unmarked_sublist (mask : List Bool) (rows : List Row) :
    (unmarked mask rows).Sublist rows :=
  (List.filter_sublist.map _).trans (map_fst_zip_sublist rows mask)

@[simp]
theorem length_assignCells (targets : List (Nat × String)) (row : Row) :
    (assignCells targets row).length = row.length := by
  induction targets generalizing row with
  | nil => rfl
  | cons target rest inductionHypothesis =>
      have others := inductionHypothesis (row.set target.1 target.2)
      rw [List.length_set] at others
      exact others

/-- Assignments that pass over the first cell keep it. -/
theorem head?_assignCells {targets : List (Nat × String)}
    (behind : ∀ target ∈ targets, target.1 ≠ 0)
    (row : Row) : (assignCells targets row).head? = row.head? := by
  induction targets generalizing row with
  | nil => rfl
  | cons target rest inductionHypothesis =>
      have others := inductionHypothesis (fun other member => behind other (.tail _ member))
        (row.set target.1 target.2)
      apply others.trans
      cases row with
      | nil => rfl
      | cons cell cells =>
          cases place : target.1 with
          | zero => exact absurd place (behind target List.mem_cons_self)
          | succ index => rfl

theorem mem_assignCells {targets : List (Nat × String)} {row : Row} {cell : String}
    (member : cell ∈ assignCells targets row) :
    cell ∈ row ∨ ∃ target ∈ targets, cell = target.2 := by
  induction targets generalizing row with
  | nil => exact .inl member
  | cons target rest inductionHypothesis =>
      have later : cell ∈ assignCells rest (row.set target.1 target.2) := member
      rcases inductionHypothesis later with before | ⟨other, inside, same⟩
      · rcases List.mem_or_eq_of_mem_set before with kept | assigned
        · exact .inl kept
        · exact .inr ⟨target, List.mem_cons_self, assigned⟩
      · exact .inr ⟨other, List.mem_cons_of_mem _ inside, same⟩

end Table

end TextTables
