import TextTables.Proofs.Table.Partition
import TextTables.Proofs.Table.Regular

/-!
# Tables that are changed in place

A table can be kept in one place and changed there step by step: the header first, then the rows,
and the last primary key before the row that takes it. Such work could be given up halfway. It is
not: all checks come before the first step, and as every row is as wide as the header, the steps
themselves go through. So work in place either comes to the table that the operation answers with
or leaves the table alone.
-/

namespace TextTables

open Text

namespace Table

/-- Why work in place stops: the operation is refused, or it asks for a cell that a row does not
have. -/
inductive Stop where
  | refused (error : SchemaError)
  | outOfRange

/-- Work on a table in place. What was done before it stops stays. -/
abbrev InPlace := EStateM Stop Table

namespace InPlace

/-- Goes on only if the table passes the check. -/
def require {Result : Type} (check : Table → Except SchemaError Result) : InPlace Result := do
  ofExcept ((check (← get)).mapError .refused)

def addColumn (name : String) : InPlace Unit := do
  if isReserved name then throw (.refused (.reservedWord name))
  if ((← get).columnIndex? name).isSome then throw (.refused (.duplicateColumn name))
  modify fun table => { table with columns := table.columns ++ [name] }
  modify fun table => { table with rows := table.rows.map fun row => row ++ [nullCell] }

/-- Takes the cell out of a row that has it. -/
def removeCell (index : Nat) (row : Row) : Except Stop Row :=
  if index < row.length then .ok (row.eraseIdx index) else .error .outOfRange

def dropColumn (name : String) : InPlace Unit := do
  if sameIgnoringCase name primaryKey then throw (.refused .primaryKeyNotWritable)
  let index ← require (·.requireColumn name)
  modify fun table => { table with columns := table.columns.eraseIdx index }
  let rows ← ofExcept ((← get).rows.mapM (removeCell index))
  modify fun table => { table with rows := rows }

def addRow (row : Row) : InPlace Unit := do
  require (·.checkWidth row.length)
  modify fun table => { table with rows := table.rows ++ [row] }

/-- Answers with the key that the row is given. -/
def insert (cells : Row) : InPlace Nat := do
  require (·.checkWidth (cells.length + 1))
  modify fun table => { table with lastKey := table.lastKey + 1 }
  modify fun table => { table with rows := table.rows ++ [toString table.lastKey :: cells] }
  return (← get).lastKey

def replaceRows (rows : List Row) : InPlace Unit := do
  rows.forM fun row => require (·.checkWidth row.length)
  modify fun table => { table with rows := rows }

end InPlace

/-- One change of a table, with all that it is given. -/
inductive Operation where
  | addColumn (name : String)
  | dropColumn (name : String)
  | addRow (row : Row)
  | insert (cells : Row)
  | replaceRows (rows : List Row)
  | setLastKey (key : Nat)

namespace Operation

/-- The changed table, or why the operation is refused. -/
def apply (table : Table) : Operation → Except SchemaError Table
  | .addColumn name => table.addColumn name
  | .dropColumn name => table.dropColumn name
  | .addRow row => table.addRow row
  | .insert cells => table.insert cells
  | .replaceRows rows => table.replaceRows rows
  | .setLastKey key => .ok { table with lastKey := key }

/-- The operation as work in place. -/
def work : Operation → InPlace Unit
  | .addColumn name => InPlace.addColumn name
  | .dropColumn name => InPlace.dropColumn name
  | .addRow row => InPlace.addRow row
  | .insert cells => do
      let _ ← InPlace.insert cells
      return ()
  | .replaceRows rows => InPlace.replaceRows rows
  | .setLastKey key => modify fun table => { table with lastKey := key }

/-- The table that operations leave one after the other, of which some can be refused. -/
def workAll (operations : List Operation) (table : Table) : Table :=
  operations.foldl (fun table operation => Work.left (operation.work table)) table

end Operation

/-- What work in place comes to, if it does as the operation says or nothing at all. -/
def settle (table : Table) : Except SchemaError Table → EStateM.Result Stop Table Unit
  | .ok changed => .ok () changed
  | .error failure => .error (.refused failure) table

variable {table : Table} {name : String}

theorem require_ok {Result : Type} {check : Table → Except SchemaError Result} {result : Result}
    (passed : check table = .ok result) : InPlace.require check table = .ok result table := by
  refine (Work.bind_ok (rfl : (get : InPlace Table) table = .ok table table) _).trans ?_
  rw [passed]
  rfl

theorem require_error {Result : Type} {check : Table → Except SchemaError Result}
    {failure : SchemaError} (failed : check table = .error failure) :
    InPlace.require check table = .error (.refused failure) table := by
  refine (Work.bind_ok (rfl : (get : InPlace Table) table = .ok table table) _).trans ?_
  rw [failed]
  rfl

theorem addColumn_work (table : Table) (name : String) :
    InPlace.addColumn name table = settle table (table.addColumn name) := by
  unfold InPlace.addColumn Table.addColumn
  split
  · rfl
  · refine (Work.bind_ok (rfl : (get : InPlace Table) table = .ok table table) _).trans ?_
    split <;> rfl

/-- Every row has the cell of a column that is found, so all of them can be taken out. -/
theorem dropColumn_work (regular : table.Regular) (name : String) :
    InPlace.dropColumn name table = settle table (table.dropColumn name) := by
  unfold InPlace.dropColumn Table.dropColumn
  split
  · rfl
  · cases found : table.columnIndex? name with
    | none =>
        have unknown : table.requireColumn name = .error (.unknownColumn name) := by
          rw [requireColumn, found]
        exact Work.bind_error (require_error unknown) _
    | some index =>
        have bound := columnIndex?_lt found
        have removed : table.rows.mapM (InPlace.removeCell index) =
            .ok (table.rows.map fun row => row.eraseIdx index) := by
          refine Work.mapM_eq_ok fun row member => ?_
          rw [InPlace.removeCell, if_pos (by rwa [regular.wide row member])]
        refine (Work.bind_ok (require_ok (requireColumn_eq_ok_iff.mpr found)) _).trans ?_
        refine (Work.bind_ok rfl _).trans ((Work.bind_ok rfl _).trans ?_)
        rw [removed]
        rfl

theorem addRow_work (table : Table) (row : Row) :
    InPlace.addRow row table = settle table (table.addRow row) := by
  unfold InPlace.addRow Table.addRow
  cases checked : table.checkWidth row.length with
  | error failure => exact Work.bind_error (require_error checked) _
  | ok _ => exact Work.bind_ok (require_ok checked) _

/-- The last primary key is counted up only once the row is known to be wide enough. -/
theorem insert_work (table : Table) (cells : Row) :
    InPlace.insert cells table =
      match table.insert cells with
      | .ok changed => .ok (table.lastKey + 1) changed
      | .error failure => .error (.refused failure) table := by
  unfold InPlace.insert Table.insert
  cases checked : table.checkWidth (cells.length + 1) with
  | error failure => exact Work.bind_error (require_error checked) _
  | ok _ => exact Work.bind_ok (require_ok checked) _

theorem replaceRows_work (table : Table) (rows : List Row) :
    InPlace.replaceRows rows table = settle table (table.replaceRows rows) := by
  unfold InPlace.replaceRows Table.replaceRows
  have checks : (rows.forM fun row => InPlace.require (·.checkWidth row.length)) table =
      match rows.forM fun row => table.checkWidth row.length with
      | .ok _ => .ok () table
      | .error failure => .error (.refused failure) table := by
    induction rows with
    | nil => rfl
    | cons row rest inductionHypothesis =>
        rw [List.forM_eq_forM] at inductionHypothesis ⊢
        rw [List.forM_cons, List.forM_eq_forM, List.forM_cons]
        cases checked : table.checkWidth row.length with
        | error failure => exact Work.bind_error (require_error checked) _
        | ok _ => exact (Work.bind_ok (require_ok checked) _).trans inductionHypothesis
  cases checked : rows.forM fun row => table.checkWidth row.length with
  | error failure =>
      rw [checked] at checks
      exact Work.bind_error checks _
  | ok _ =>
      rw [checked] at checks
      exact Work.bind_ok checks _

namespace Operation

/-- Work in place on a table of rows as wide as its header comes to what the operation answers with,
or leaves the table alone. -/
theorem work_eq (regular : table.Regular) (operation : Operation) :
    operation.work table = settle table (operation.apply table) := by
  cases operation with
  | addColumn name => exact addColumn_work table name
  | dropColumn name => exact dropColumn_work regular name
  | addRow row => exact addRow_work table row
  | insert cells =>
      have inserted := insert_work table cells
      change (InPlace.insert cells >>= fun _ => pure ()) table = settle table (table.insert cells)
      cases applied : table.insert cells with
      | ok changed =>
          rw [applied] at inserted
          exact Work.bind_ok inserted _
      | error failure =>
          rw [applied] at inserted
          exact Work.bind_error inserted _
  | replaceRows rows => exact replaceRows_work table rows
  | setLastKey key => rfl

theorem regular_apply {operation : Operation} {changed : Table} (regular : table.Regular)
    (applied : operation.apply table = .ok changed) : changed.Regular := by
  cases operation with
  | addColumn name => exact regular.addColumn applied
  | dropColumn name => exact regular.dropColumn applied
  | addRow row => exact regular.addRow applied
  | insert cells => exact regular.insert applied
  | replaceRows rows => exact regular.replaceRows applied
  | setLastKey key =>
      cases applied
      exact { regular with }

/-- One operation keeps a table regular, whether it is refused or not. -/
theorem regular_work (regular : table.Regular) (operation : Operation) :
    (Work.left (operation.work table)).Regular := by
  rw [work_eq regular]
  cases applied : operation.apply table with
  | ok changed => exact regular_apply regular applied
  | error failure => exact regular

theorem regular_workAll (regular : table.Regular) (operations : List Operation) :
    (workAll operations table).Regular := by
  induction operations generalizing table with
  | nil => exact regular
  | cons operation rest inductionHypothesis =>
      exact inductionHypothesis (regular_work regular operation)

end Operation

/-- A table before any operation: without columns, or with the columns it was made with. -/
inductive IsNew : Table → Prop
  | bare (name : String) (lastKey : Nat) : IsNew (bare name lastKey)
  | withColumns {name : String} {columns : List String} {table : Table}
      (made : withColumns name columns = .ok table) : IsNew table

theorem IsNew.regular (new : table.IsNew) : table.Regular := by
  cases new with
  | bare name lastKey => exact .bare name lastKey
  | withColumns made => exact .withColumns made

/-- Whatever operations a new table has been through, its rows are as wide as its header and its
columns are told apart by their names, so that all columns of the header are found at their own
positions. One more operation does as it says, and one that stops leaves the table alone. -/
theorem workAll_keeps (new : table.IsNew) (operations : List Operation) :
    let reached := Operation.workAll operations table
    (∀ row ∈ reached.rows, row.length = reached.columns.length) ∧
      (reached.columns.Pairwise fun first second => ¬ sameIgnoringCase first second) ∧
      (∀ column ∈ reached.columns, isReserved column = false) ∧
      reached.columns.mapM reached.declared = .ok reached.columns ∧
      reached.project reached.columns none = .ok ⟨reached.columns, reached.rows⟩ ∧
      ∀ operation : Operation,
        operation.work reached = settle reached (operation.apply reached) ∧
        ∀ stop after, operation.work reached = .error stop after → after = reached := by
  intro reached
  have regular : reached.Regular := Operation.regular_workAll new.regular operations
  refine ⟨regular.wide, regular.distinct, regular.unreserved, mapM_declared regular,
    project_columns regular none, fun operation => ⟨Operation.work_eq regular operation, ?_⟩⟩
  intro stop after stopped
  rw [Operation.work_eq regular] at stopped
  cases applied : operation.apply reached with
  | ok changed => simp [settle, applied] at stopped
  | error failure =>
      rw [applied] at stopped
      cases stopped
      rfl

theorem workAll_keeps_refused :
    let table : Table := ⟨"t", ["id", "a", "B"], [], 0⟩
    let operations : List Operation := [.insert ["x"], .insert ["x", "y"], .addColumn "b",
      .dropColumn "A", .replaceRows [["1", "z"], ["2"]], .dropColumn "ID", .addColumn "c"]
    table.IsNew ∧ Operation.workAll operations table =
        ⟨"t", ["id", "B", "c"], [["1", "y", "NULL"]], 1⟩ ∧
      (Operation.workAll operations table).project ["id", "B", "c"] none =
        .ok ⟨["id", "B", "c"], [["1", "y", "NULL"]]⟩ := by
  intro table operations
  have new : table.IsNew :=
    .withColumns (by decide +kernel : withColumns "T" ["a", "B"] = .ok table)
  have reached : Operation.workAll operations table =
      ⟨"t", ["id", "B", "c"], [["1", "y", "NULL"]], 1⟩ := by decide +kernel
  have projected := (workAll_keeps new operations).2.2.2.2.1
  rw [reached] at projected
  exact ⟨new, reached, reached ▸ projected⟩

end Table

end TextTables
