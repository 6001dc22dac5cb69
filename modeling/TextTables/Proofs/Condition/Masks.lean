import TextTables.Proofs.Condition.Evaluation
import TextTables.Proofs.Work

/-!
# Conditions on all rows of a table

A condition is evaluated on one row after the other. All rows have the same columns, so that the
first row decides whether the condition names a column that the table lacks. A table without rows
accepts every condition.
-/

namespace TextTables.Condition

open Work

/-- No row of the table misses a column that the condition names. -/
def IsEvaluable (condition : Condition) (table : Table) : Prop :=
  table.rows ≠ [] → ∀ column ∈ condition.columns, ¬ table.lacks column

variable {table : Table} {condition : Condition} {marks : List Bool} {error : SchemaError}

/-- The leftmost unknown column is reported by the first row, and by no row if there is none. -/
theorem mask_eq (wide : ∀ row ∈ table.rows, row.length = table.columns.length)
    (condition : Condition) :
    condition.mask table =
      match condition.columns.find? table.lacks with
      | none => .ok (table.rows.map fun row => condition.truth (table.cell? row))
      | some column => if table.rows = [] then .ok [] else .error (.unknownColumn column) := by
  have each : ∀ row ∈ table.rows, condition.evaluate table row = condition.verdict table row :=
    fun row member => (evaluate_eq_verdict (wide row member) condition).1
  unfold mask
  cases missing : condition.columns.find? table.lacks with
  | none =>
      refine mapM_eq_ok fun row member => ?_
      rw [each row member, verdict, missing]
  | some column =>
      cases rows : table.rows with
      | nil => rfl
      | cons row rest =>
          have first : condition.evaluate table row = .error (.unknownColumn column) := by
            rw [each row (rows ▸ List.mem_cons_self), verdict, missing]
          rw [List.mapM_cons, first]
          rfl

theorem isEvaluable_iff :
    condition.IsEvaluable table ↔
      table.rows = [] ∨ condition.columns.find? table.lacks = none := by
  rw [IsEvaluable, List.find?_eq_none, Classical.or_iff_not_imp_left]

theorem mask_eq_ok_iff (wide : ∀ row ∈ table.rows, row.length = table.columns.length) :
    condition.mask table = .ok marks ↔
      condition.IsEvaluable table ∧
        marks = table.rows.map fun row => condition.truth (table.cell? row) := by
  rw [mask_eq wide, isEvaluable_iff]
  cases missing : condition.columns.find? table.lacks with
  | none => simp [eq_comm]
  | some column =>
      by_cases empty : table.rows = []
      · simp [empty, eq_comm]
      · simp [empty]

theorem mask_eq_error_iff (wide : ∀ row ∈ table.rows, row.length = table.columns.length) :
    condition.mask table = .error error ↔
      table.rows ≠ [] ∧ ∃ column, condition.columns.find? table.lacks = some column ∧
        error = .unknownColumn column := by
  rw [mask_eq wide]
  cases missing : condition.columns.find? table.lacks with
  | none => simp
  | some column =>
      by_cases empty : table.rows = []
      · simp [empty]
      · simp [empty, eq_comm]

theorem not_isEvaluable_iff :
    ¬ condition.IsEvaluable table ↔
      table.rows ≠ [] ∧ ∃ column ∈ condition.columns, table.lacks column := by
  simp [IsEvaluable]

theorem refused_mask_iff (wide : ∀ row ∈ table.rows, row.length = table.columns.length) :
    (∃ error, condition.mask table = .error error) ↔ ¬ condition.IsEvaluable table := by
  rw [isEvaluable_iff, mask_eq wide]
  cases missing : condition.columns.find? table.lacks with
  | none => simp
  | some column => by_cases empty : table.rows = [] <;> simp [empty]

/-- What is done with the mask, once there is one, is done if the condition can be evaluated. -/
theorem map_mask_eq_ok_iff {Result : Type}
    (wide : ∀ row ∈ table.rows, row.length = table.columns.length) {result outcome : Result} :
    (condition.mask table).map (fun _ => result) = .ok outcome ↔
      condition.IsEvaluable table ∧ outcome = result := by
  cases evaluated : condition.mask table with
  | error error =>
      have refused := (refused_mask_iff wide).mp ⟨error, evaluated⟩
      simp [Except.map, refused]
  | ok marks =>
      obtain ⟨evaluable, -⟩ := (mask_eq_ok_iff wide).mp evaluated
      simp [Except.map, evaluable, eq_comm]

end TextTables.Condition
