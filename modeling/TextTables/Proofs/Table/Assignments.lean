import TextTables.Proofs.Table.Projection

/-!
# What updates and deletions make of a table

An update goes over the rows one by one. Where the condition holds, each column takes the text that
was assigned to it last, and the other columns keep their cells. A deletion leaves the rows on which
the condition does not hold. Either of them finds nothing more to do when it is repeated.
-/

namespace TextTables

open Text Work

/-- The text that the last assignment to the column puts there. -/
def assigned? (assignments : List (String × Literal)) (column : String) : Option String :=
  (assignments.reverse.find? fun assignment => sameIgnoringCase column assignment.1).map
    fun assignment => assignment.2.text

namespace Table

/-- Why nothing can be assigned to the column, if it cannot. -/
def refusal? (table : Table) (column : String) : Option SchemaError :=
  if sameIgnoringCase column primaryKey then some .primaryKeyNotWritable
  else if isReserved column then some (.reservedWord column)
  else if table.lacks column then some (.unknownColumn column)
  else none

/-- Why the assignments cannot be made, if they cannot. The first one of them counts. -/
def firstRefusal? (table : Table) (assignments : List (String × Literal)) : Option SchemaError :=
  assignments.findSome? fun assignment => table.refusal? assignment.1

/-- The position of the assigned column, and the text that goes there. -/
def placed (table : Table) (assignment : String × Literal) : Nat × String :=
  (table.position assignment.1, assignment.2.text)

/-- The row with the assigned texts in place of the cells of their columns. -/
def reassign (table : Table) (assignments : List (String × Literal)) (row : Row) : Row :=
  (table.columns.zip row).map fun labelled => (assigned? assignments labelled.1).getD labelled.2

/-- The table with the texts assigned in the rows on which the condition holds. -/
def updated (table : Table) (assignments : List (String × Literal)) (condition : Condition) :
    Table :=
  { table with
    rows := table.rows.map fun row =>
      if condition.truth (table.cell? row) then table.reassign assignments row else row }

/-- The table without the rows on which the condition holds. -/
def remaining (table : Table) (condition : Condition) : Table :=
  { table with rows := table.rows.filter fun row => !condition.truth (table.cell? row) }

variable {table changed : Table} {assignments : List (String × Literal)} {condition : Condition}
  {error : SchemaError} {row : Row} {index : Nat}

/-! ### Assignments -/

theorem target_eq (table : Table) (assignment : String × Literal) :
    table.target assignment =
      (table.refusal? assignment.1).elim (.ok (table.placed assignment)) .error := by
  obtain ⟨column, literal⟩ := assignment
  unfold target refusal? placed
  by_cases key : sameIgnoringCase column primaryKey
  · simp [key]
  by_cases word : isReserved column
  · simp [key, word]
  by_cases missing : table.lacks column
  · simp [key, word, missing, requireColumn, lacks_iff.mp missing, bind, Except.bind]
  · have found := columnIndex?_eq_position missing
    simp [key, word, missing, requireColumn, found, bind, Except.bind, pure, Except.pure]

/-- The targets are looked up in order, up to the first that is refused. -/
theorem mapM_target (table : Table) (assignments : List (String × Literal)) :
    assignments.mapM table.target =
      (table.firstRefusal? assignments).elim (.ok (assignments.map table.placed)) .error :=
  mapM_eq_findSome? table.target_eq assignments

theorem firstRefusal?_eq_none_iff :
    table.firstRefusal? assignments = none ↔
      ∀ assignment ∈ assignments, table.refusal? assignment.1 = none :=
  List.findSome?_eq_none_iff

theorem not_lacks_of_refusal? {column : String} (allowed : table.refusal? column = none) :
    ¬ table.lacks column := by
  unfold refusal? at allowed
  split_ifs at allowed
  assumption

/-- Of the texts that are put into one place, the last one stays. -/
theorem getElem_assignCells (targets : List (Nat × String)) (inside : index < row.length)
    (within : index < (assignCells targets row).length) :
    (assignCells targets row)[index] =
      ((targets.reverse.find? fun target => target.1 == index).map Prod.snd).getD row[index] := by
  induction targets generalizing row with
  | nil => rfl
  | cons target rest inductionHypothesis =>
      have others := @inductionHypothesis (row.set target.1 target.2)
        (by rwa [List.length_set]) within
      refine others.trans ?_
      rw [List.reverse_cons, List.find?_append]
      cases later : rest.reverse.find? fun target => target.1 == index with
      | some last => rfl
      | none =>
          rw [List.getElem_set]
          by_cases here : target.1 = index <;> simp [here]

/-- The texts are put into the cells of their columns. -/
theorem assignCells_eq_reassign (regular : table.Regular)
    (allowed : table.firstRefusal? assignments = none) (wide : row.length = table.columns.length) :
    assignCells (assignments.map table.placed) row = table.reassign assignments row := by
  refine List.ext_getElem (by simp [reassign, wide]) fun index within _ => ?_
  have inRow : index < row.length := by simpa using within
  have inside : index < table.columns.length := wide ▸ inRow
  have same : ∀ assignment ∈ assignments.reverse,
      ((table.placed assignment).1 == index) =
        sameIgnoringCase table.columns[index] assignment.1 := by
    intro assignment member
    have found := columnIndex?_eq_position (not_lacks_of_refusal?
      (firstRefusal?_eq_none_iff.mp allowed assignment (List.mem_reverse.mp member)))
    rw [Bool.eq_iff_iff, ← columnIndex?_eq_some_iff regular.distinct inside, found]
    simp [placed]
  have last : ((assignments.map table.placed).reverse.find? fun target => target.1 == index).map
      Prod.snd = assigned? assignments table.columns[index] := by
    rw [← List.map_reverse, List.find?_map, Option.map_map]
    exact congrArg (Option.map _) (List.find?_congr same)
  simp only [getElem_assignCells _ inRow within, reassign, List.getElem_map, List.getElem_zip, last]

theorem length_reassign (wide : row.length = table.columns.length) :
    (table.reassign assignments row).length = table.columns.length := by
  simp [reassign, wide]

theorem reassign_reassign (wide : row.length = table.columns.length) :
    table.reassign assignments (table.reassign assignments row) =
      table.reassign assignments row := by
  refine List.ext_getElem (by simp [reassign, wide]) fun index inside _ => ?_
  have inHeader : index < table.columns.length := by simpa [reassign, wide] using inside
  simp only [reassign, List.getElem_map, List.getElem_zip]
  cases assigned? assignments table.columns[index] <;> rfl

/-! ### Updates -/

theorem update_eq_error (refused : table.firstRefusal? assignments = some error) :
    table.update assignments condition = .error error := by
  unfold update
  rw [mapM_target, refused]
  rfl

theorem Regular.wide_updated (regular : table.Regular) :
    ∀ row ∈ (table.updated assignments condition).rows, row.length = table.columns.length := by
  intro row member
  obtain ⟨old, inside, rfl⟩ := List.mem_map.mp member
  split
  · exact length_reassign (regular.wide old inside)
  · exact regular.wide old inside

/-- Beside each row stands whether the condition holds on it, so that each row is rewritten or kept
for what holds on itself. -/
theorem map_zip_truth (regular : table.Regular)
    (allowed : table.firstRefusal? assignments = none) :
    (table.rows.zip (table.rows.map fun row => condition.truth (table.cell? row))).map
        (fun marked =>
          if marked.2 then assignCells (assignments.map table.placed) marked.1 else marked.1) =
      (table.updated assignments condition).rows := by
  rw [zip_map_self, List.map_map]
  refine List.map_congr_left fun row member => ?_
  simp only [Function.comp_apply,
    assignCells_eq_reassign regular allowed (regular.wide row member)]

theorem update_eq (regular : table.Regular) (allowed : table.firstRefusal? assignments = none) :
    table.update assignments condition =
      (condition.mask table).map fun _ => table.updated assignments condition := by
  have located : assignments.mapM table.target = .ok (assignments.map table.placed) := by
    rw [mapM_target, allowed, Option.elim_none]
  cases evaluated : condition.mask table with
  | error error =>
      rw [update, located, evaluated]
      rfl
  | ok marks =>
      obtain ⟨-, rfl⟩ := (Condition.mask_eq_ok_iff regular.wide).mp evaluated
      rw [update, located, evaluated]
      change table.replaceRows _ = .ok _
      rw [map_zip_truth regular allowed]
      exact replaceRows_ok regular.wide_updated

/-- An update is accepted if no assignment is refused and the condition can be evaluated, and then
it rewrites the rows on which the condition holds. -/
theorem update_eq_ok_iff (regular : table.Regular) :
    table.update assignments condition = .ok changed ↔
      table.firstRefusal? assignments = none ∧ condition.IsEvaluable table ∧
        changed = table.updated assignments condition := by
  cases allowed : table.firstRefusal? assignments with
  | some error => simp [update_eq_error allowed]
  | none =>
      rw [update_eq regular allowed, Condition.map_mask_eq_ok_iff regular.wide]
      exact (and_iff_right rfl).symm

/-! ### Deletions -/

theorem delete_eq (regular : table.Regular) :
    table.delete condition = (condition.mask table).map fun _ => table.remaining condition := by
  cases evaluated : condition.mask table with
  | error error =>
      rw [delete, evaluated]
      rfl
  | ok marks =>
      obtain ⟨-, rfl⟩ := (Condition.mask_eq_ok_iff regular.wide).mp evaluated
      have left : unmarked (table.rows.map fun row => condition.truth (table.cell? row))
          table.rows = (table.remaining condition).rows := by
        rw [unmarked, zip_map_self, List.filter_map, List.map_map]
        exact List.map_id _
      rw [delete, evaluated]
      change table.replaceRows _ = .ok _
      rw [left]
      exact replaceRows_ok fun row member => regular.wide row (List.mem_of_mem_filter member)

/-- A deletion is accepted if the condition can be evaluated, and then it leaves the rows on which
the condition does not hold. -/
theorem delete_eq_ok_iff (regular : table.Regular) :
    table.delete condition = .ok changed ↔
      condition.IsEvaluable table ∧ changed = table.remaining condition := by
  rw [delete_eq regular, Condition.map_mask_eq_ok_iff regular.wide]

/-! ### Changes made again -/

/-- The rewritten rows on which the condition still holds have the assigned texts already. -/
theorem updated_updated (regular : table.Regular) :
    (table.updated assignments condition).updated assignments condition =
      table.updated assignments condition := by
  have kept : ((table.updated assignments condition).updated assignments condition).rows =
      (table.updated assignments condition).rows := by
    refine (List.map_map).trans (List.map_congr_left fun row member => ?_)
    have again : table.reassign assignments (table.reassign assignments row) =
        table.reassign assignments row := reassign_reassign (regular.wide row member)
    -- The condition may have stopped holding on a rewritten row, and either way the row is kept.
    by_cases before : condition.truth (table.cell? row)
    · rw [Function.comp_apply, if_pos before]
      split
      · exact again
      · rfl
    · rw [Function.comp_apply, if_neg before]
      exact if_neg before
  exact congrArg (fun rows => ({ table with rows := rows } : Table)) kept

theorem update_again (regular : table.Regular)
    (done : table.update assignments condition = .ok changed) :
    changed.update assignments condition = .ok changed := by
  obtain ⟨allowed, evaluable, rfl⟩ := (update_eq_ok_iff regular).mp done
  refine (update_eq_ok_iff (regular.update done)).mpr ⟨allowed, fun filled => ?_, ?_⟩
  · exact evaluable fun empty => filled (by simp [updated, empty])
  · exact (updated_updated regular).symm

theorem delete_again (regular : table.Regular) (done : table.delete condition = .ok changed) :
    changed.delete condition = .ok changed := by
  obtain ⟨evaluable, rfl⟩ := (delete_eq_ok_iff regular).mp done
  refine (delete_eq_ok_iff (regular.delete done)).mpr ⟨fun filled => ?_, ?_⟩
  · exact evaluable fun empty => filled (by simp [remaining, empty])
  · have twice : (table.remaining condition).rows =
        ((table.remaining condition).remaining condition).rows := by
      refine (List.filter_eq_self.mpr fun row member => ?_).symm
      exact (List.mem_filter.mp member).2
    exact congrArg (fun rows => ({ table with rows := rows } : Table)) twice

end Table

end TextTables
