import TextTables.Proofs.Table.Changes

/-!
# Tables of every origin

Whether commands made a table or it was read from a file, its header has no words of the language
and no column twice, and every row has one cell for each column. Every change keeps it so.
-/

namespace TextTables.Table

/-- What every table keeps to, wherever it comes from. -/
structure Regular (table : Table) : Prop where
  unreserved : ∀ column ∈ table.columns, isReserved column = false
  distinct : Distinct table.columns
  wide : ∀ row ∈ table.rows, row.length = table.columns.length

namespace Regular

variable {table changed : Table} {name : String}

theorem bare (name : String) (lastKey : Nat) : (Table.bare name lastKey).Regular where
  unreserved := by simp [Table.bare]
  distinct := List.Pairwise.nil
  wide := by simp [Table.bare]

theorem addColumn (regular : table.Regular) (added : table.addColumn name = .ok changed) :
    changed.Regular := by
  obtain ⟨free, fresh, rfl⟩ := addColumn_eq_ok added
  refine { unreserved := ?_, distinct := ?_, wide := ?_ }
  · intro column member
    rcases List.mem_append.mp member with before | last
    · exact regular.unreserved column before
    · exact List.mem_singleton.mp last ▸ free
  · refine List.pairwise_append.mpr ⟨regular.distinct, by simp, ?_⟩
    simpa using fresh
  · intro row member
    obtain ⟨old, inside, rfl⟩ := List.mem_map.mp member
    simp [regular.wide old inside]

theorem dropColumn (regular : table.Regular) (dropped : table.dropColumn name = .ok changed) :
    changed.Regular := by
  obtain ⟨-, index, found, rfl⟩ := dropColumn_eq_ok dropped
  have bound := columnIndex?_lt found
  refine { unreserved := ?_, distinct := ?_, wide := ?_ }
  · exact fun column member => regular.unreserved column (List.mem_of_mem_eraseIdx member)
  · exact regular.distinct.sublist (List.eraseIdx_sublist _ _)
  · intro row member
    obtain ⟨old, inside, rfl⟩ := List.mem_map.mp member
    have wide := regular.wide old inside
    rw [List.length_eraseIdx_of_lt bound, List.length_eraseIdx_of_lt (wide ▸ bound), wide]

theorem addRow (regular : table.Regular) {cells : Row} (added : table.addRow cells = .ok changed) :
    changed.Regular := by
  obtain ⟨width, rfl⟩ := addRow_eq_ok added
  refine { regular with wide := fun row member => ?_ }
  rcases List.mem_append.mp member with before | last
  · exact regular.wide row before
  · simpa [List.mem_singleton.mp last] using width

theorem insert (regular : table.Regular) {cells : Row}
    (inserted : table.insert cells = .ok changed) : changed.Regular := by
  obtain ⟨width, rfl⟩ := insert_eq_ok inserted
  refine { regular with wide := fun row member => ?_ }
  rcases List.mem_append.mp member with before | last
  · exact regular.wide row before
  · simpa [List.mem_singleton.mp last] using width

theorem replaceRows (regular : table.Regular) {rows : List Row}
    (replaced : table.replaceRows rows = .ok changed) : changed.Regular := by
  obtain ⟨wide, rfl⟩ := replaceRows_eq_ok replaced
  exact { regular with wide := wide }

theorem update (regular : table.Regular) {assignments : List (String × Literal)}
    {condition : Condition} (updated : table.update assignments condition = .ok changed) :
    changed.Regular := by
  obtain ⟨targets, mask, -, -, replaced⟩ := update_eq_ok updated
  exact regular.replaceRows replaced

theorem delete (regular : table.Regular) {condition : Condition}
    (deleted : table.delete condition = .ok changed) : changed.Regular := by
  obtain ⟨mask, -, replaced⟩ := delete_eq_ok deleted
  exact regular.replaceRows replaced

theorem withColumns {columns : List String} (made : Table.withColumns name columns = .ok table) :
    table.Regular := by
  obtain ⟨unreserved, distinct, rfl⟩ := withColumns_eq_ok made
  exact { unreserved := unreserved, distinct := distinct, wide := by simp }

end Regular

/-- The tables that the operations make, in any number and order. -/
inductive Built : Table → Prop
  | bare (name : String) (lastKey : Nat) : Built (bare name lastKey)
  | withColumns {name : String} {columns : List String} {table : Table}
      (made : withColumns name columns = .ok table) : Built table
  | addColumn {table changed : Table} {name : String} (built : Built table)
      (added : table.addColumn name = .ok changed) : Built changed
  | dropColumn {table changed : Table} {name : String} (built : Built table)
      (dropped : table.dropColumn name = .ok changed) : Built changed
  | addRow {table changed : Table} {cells : Row} (built : Built table)
      (added : table.addRow cells = .ok changed) : Built changed
  | insert {table changed : Table} {cells : Row} (built : Built table)
      (inserted : table.insert cells = .ok changed) : Built changed
  | replaceRows {table changed : Table} {rows : List Row} (built : Built table)
      (replaced : table.replaceRows rows = .ok changed) : Built changed
  | setLastKey {table : Table} (built : Built table) (key : Nat) :
      Built { table with lastKey := key }

theorem Built.regular {table : Table} (built : table.Built) : table.Regular := by
  induction built with
  | bare name lastKey => exact .bare name lastKey
  | withColumns made => exact .withColumns made
  | addColumn _ added inductionHypothesis => exact inductionHypothesis.addColumn added
  | dropColumn _ dropped inductionHypothesis => exact inductionHypothesis.dropColumn dropped
  | addRow _ added inductionHypothesis => exact inductionHypothesis.addRow added
  | insert _ inserted inductionHypothesis => exact inductionHypothesis.insert inserted
  | replaceRows _ replaced inductionHypothesis => exact inductionHypothesis.replaceRows replaced
  | setLastKey _ _ inductionHypothesis => exact { inductionHypothesis with }

end TextTables.Table
