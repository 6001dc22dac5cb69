import TextTables.Join
import TextTables.Proofs.Database.Order
import TextTables.Proofs.Statement.Quoting
import TextTables.Proofs.Strict
import TextTables.Proofs.Table.Lookup
import TextTables.Proofs.Table.Regular

/-!
# Cells looked up by their position

A cell is looked up in a row by the position of its column, and the two come from different
places: the position from the header, the row from a file or a command. The strict forms of all
operations on a table look at nothing beside the row, and a regular table has an answer to each.
-/

namespace TextTables

open Strict

namespace Comparator

/-- The comparison, for which the text of the literal is cut out. -/
def holds? (comparator : Comparator) (cell : String) (literal : Literal) : Option Bool :=
  literal.text?.map fun _ => comparator.holds cell literal

theorem holds?_eq {literal : Literal} (quoted : literal.WellQuoted) (comparator : Comparator)
    (cell : String) : comparator.holds? cell literal = some (comparator.holds cell literal) := by
  rw [holds?, literal.text?_eq quoted, Option.map_some]

end Comparator

namespace Condition

/-- Works the agenda off, and looks at each cell by its position. -/
def work? (table : Table) (row : Row) (agenda : List Task) (results : List Bool) :
    ExceptT SchemaError Option Bool :=
  match agenda with
  | [] => pure (results.headD false)
  | .visit (comparison column comparator literal) :: agenda => do
      let index ← check (table.requireColumn column)
      let cell ← access row[index]?
      let held ← access (comparator.holds? cell literal)
      work? table row agenda (held :: results)
  | .visit (combine connective left right) :: agenda =>
      work? table row (.visit left :: .visit right :: .join connective :: agenda) results
  | .join connective :: agenda =>
      let right := results.headD false
      let left := results.tail.headD false
      work? table row agenda (connective.apply left right :: results.tail.tail)
termination_by (agenda.map Task.cost).foldr (· + ·) 0
decreasing_by all_goals simp only [List.map_cons, List.foldr_cons, Task.cost, size]; omega

def evaluate? (condition : Condition) (table : Table) (row : Row) :
    ExceptT SchemaError Option Bool :=
  work? table row [.visit condition] []

def mask? (condition : Condition) (table : Table) : ExceptT SchemaError Option (List Bool) :=
  table.rows.mapM (condition.evaluate? table)

def Task.WellQuoted : Task → Prop
  | visit condition => condition.WellQuoted
  | join _ => True

end Condition

/-- Takes out the cell or column at the position. -/
def removeAt? (texts : List String) (index : Nat) : Option (List String) :=
  if index < texts.length then some (texts.eraseIdx index) else none

namespace Table

def dropColumn? (table : Table) (name : String) : ExceptT SchemaError Option Table :=
  if Text.sameIgnoringCase name primaryKey then check (.error .primaryKeyNotWritable)
  else do
    let index ← check (table.requireColumn name)
    let columns ← access (removeAt? table.columns index)
    let rows ← access (table.rows.mapM fun row => removeAt? row index)
    return { table with columns := columns, rows := rows }

/-- Appends a row, if there is another key of 64 bits. -/
def insert? (table : Table) (cells : Row) : ExceptT SchemaError Option Table := do
  check (table.checkWidth (cells.length + 1))
  if table.lastKey = UInt64.size - 1 then access none
  check (table.insert cells)

def declared? (table : Table) (name : String) : ExceptT SchemaError Option String := do
  let index ← check (table.requireColumn name)
  let column ← access table.columns[index]?
  if isReserved column then check (.error (.reservedWord column))
  else return column

def pick? (indexes : List Nat) (row : Row) : Option Row :=
  indexes.mapM fun index => row[index]?

def project? (table : Table) (names : List String) (mask : Option (List Bool)) :
    ExceptT SchemaError Option ResultSet := do
  let columns ← names.mapM table.declared?
  let indexes ← columns.mapM fun column => check (table.requireColumn column)
  let rows ← access ((marked mask table.rows).mapM (pick? indexes))
  return ⟨columns, rows⟩

def select? (table : Table) (names : Option (List String)) (condition : Option Condition) :
    ExceptT SchemaError Option ResultSet :=
  match condition with
  | none => table.project? (table.chosen names) none
  | some condition => do
      let mask ← condition.mask? table
      table.project? (table.chosen names) (some mask)

def target? (table : Table) (assignment : String × Literal) :
    ExceptT SchemaError Option (Nat × String) := do
  let text ← access assignment.2.text?
  let (index, _) ← check (table.target assignment)
  return (index, text)

def assignCells? (targets : List (Nat × String)) (row : Row) : Option Row :=
  targets.foldlM (fun row target =>
    if target.1 < row.length then some (row.set target.1 target.2) else none) row

def update? (table : Table) (assignments : List (String × Literal)) (condition : Condition) :
    ExceptT SchemaError Option Table := do
  let targets ← assignments.mapM table.target?
  let mask ← condition.mask? table
  let rows ← access ((table.rows.zip mask).mapM fun marked =>
    if marked.2 then assignCells? targets marked.1 else some marked.1)
  check (table.replaceRows rows)

def delete? (table : Table) (condition : Condition) : ExceptT SchemaError Option Table := do
  let mask ← condition.mask? table
  check (table.replaceRows (unmarked mask table.rows))

/-- The pairs of the row with those that agree with it. -/
def partners? (firstKey secondKey : Nat) (left : Row) : List Row → Option (List (Row × Row))
  | [] => some []
  | right :: rest => do
      let cell ← left[firstKey]?
      let other ← right[secondKey]?
      let later ← partners? firstKey secondKey left rest
      return if cell == other then (left, right) :: later else later

def agreeingPairs? (firstKey secondKey : Nat) (firstRows secondRows : List Row) :
    Option (List (Row × Row)) :=
  (firstRows.mapM fun left => partners? firstKey secondKey left secondRows).map List.flatten

def join? (first second : Table) (firstKey secondKey : Nat) : Option ResultSet := do
  let pairs ← agreeingPairs? firstKey secondKey first.rows second.rows
  return {
    columns := primaryKey :: (first.joinedColumns firstKey ++ second.joinedColumns secondKey)
    rows := (pairs.zipIdx 1).map fun pair =>
      toString pair.2 :: (keep firstKey pair.1.1 ++ keep secondKey pair.1.2) }

end Table

def Database.join? (database : Database) (first second : String) (references : List Attribute) :
    ExceptT Error Option ResultSet := do
  let firstTable ← check (database.table first)
  let secondTable ← check (database.table second)
  let (firstColumn, secondColumn) ← check (JoinBinding.columns first second references)
  let firstKey ← check ((firstTable.requireColumn firstColumn).mapError .schema)
  let secondKey ← check ((secondTable.requireColumn secondColumn).mapError .schema)
  access (firstTable.join? secondTable firstKey secondKey)

namespace Condition

/-- A row that is as wide as the header has a cell for every column that is found. -/
theorem work?_eq {table : Table} {row : Row} (wide : row.length = table.columns.length)
    {agenda : List Task} {results : List Bool} (quoted : ∀ task ∈ agenda, task.WellQuoted) :
    (work? table row agenda results).run = some (work table row agenda results) := by
  induction agenda, results using work.induct table row with
  | case1 results => rw [work?, work]; rfl
  | case2 results column comparator literal agenda error unknown =>
      rw [work?, work, unknown]
      rfl
  | case3 results column comparator literal agenda index found inductionHypothesis =>
      have inside : index < row.length := by
        rw [wide]
        exact Table.columnIndex?_lt (Table.requireColumn_eq_ok_iff.mp found)
      have cell : row[index]? = some (row.getD index "") := by
        rw [List.getD_eq_getElem?_getD, List.getElem?_eq_getElem inside, Option.getD_some]
      have literalQuoted := quoted _ List.mem_cons_self
      have held := comparator.holds?_eq literalQuoted (row.getD index "")
      rw [work?, work, found]
      change (access row[index]? >>= _).run = _
      rw [run_access_bind cell, run_access_bind held]
      exact inductionHypothesis fun task member => quoted task (.tail _ member)
  | case4 results connective left right agenda inductionHypothesis =>
      rw [work?, work]
      obtain ⟨leftQuoted, rightQuoted⟩ := quoted _ List.mem_cons_self
      refine inductionHypothesis fun task member => ?_
      simp only [List.mem_cons] at member
      rcases member with rfl | rfl | rfl | later
      · exact leftQuoted
      · exact rightQuoted
      · trivial
      · exact quoted task (.tail _ later)
  | case5 results connective agenda right left inductionHypothesis =>
      rw [work?, work]
      exact inductionHypothesis fun task member => quoted task (.tail _ member)

theorem mask?_eq {table : Table} {condition : Condition} (regular : table.Regular)
    (quoted : condition.WellQuoted) :
    (condition.mask? table).run = some (condition.mask table) := by
  refine run_mapM fun row member => work?_eq (regular.wide row member) fun task inside => ?_
  rw [List.mem_singleton.mp inside]
  exact quoted

end Condition

theorem removeAt?_eq {texts : List String} {index : Nat} (inside : index < texts.length) :
    removeAt? texts index = some (texts.eraseIdx index) :=
  if_pos inside

namespace Table

variable {table : Table}

theorem dropColumn?_eq (regular : table.Regular) (name : String) :
    (table.dropColumn? name).run = some (table.dropColumn name) := by
  unfold dropColumn? dropColumn
  split
  · rfl
  · cases found : table.columnIndex? name with
    | none =>
        rw [requireColumn, found, run_check_error_bind]
    | some index =>
        have bound := columnIndex?_lt found
        have rows : table.rows.mapM (fun row => removeAt? row index) =
            some (table.rows.map fun row => row.eraseIdx index) :=
          mapM_eq_some fun row member => removeAt?_eq (regular.wide row member ▸ bound)
        rw [requireColumn, found, run_check_ok_bind, run_access_bind (removeAt?_eq bound),
          run_access_bind rows]
        rfl

theorem insert?_eq (spare : table.lastKey ≠ UInt64.size - 1) (cells : Row) :
    (table.insert? cells).run = some (table.insert cells) := by
  unfold insert?
  cases checked : table.checkWidth (cells.length + 1) with
  | error error =>
      rw [run_check_error_bind, insert, checked]
      rfl
  | ok _ =>
      rw [run_check_ok_bind, if_neg spare]
      rfl

theorem declared?_eq (table : Table) (name : String) :
    (table.declared? name).run = some (table.declared name) := by
  unfold declared? declared
  refine run_bind rfl fun index found => ?_
  have bound := columnIndex?_lt (requireColumn_eq_ok_iff.mp found)
  have column : table.columns[index]? = some (table.columns.getD index "") := by
    rw [List.getD_eq_getElem?_getD, List.getElem?_eq_getElem bound, Option.getD_some]
  rw [run_access_bind column]
  dsimp only
  split <;> rfl

theorem pick?_eq {indexes : List Nat} {row : Row} (inside : ∀ index ∈ indexes, index < row.length) :
    pick? indexes row = some (pick indexes row) := by
  refine mapM_eq_some fun index member => ?_
  rw [List.getD_eq_getElem?_getD, List.getElem?_eq_getElem (inside index member), Option.getD_some]

theorem project?_eq (regular : table.Regular) (names : List String) (mask : Option (List Bool)) :
    (table.project? names mask).run = some (table.project names mask) := by
  unfold project? project
  refine run_bind (run_mapM fun name _ => table.declared?_eq name) fun columns _ => ?_
  refine run_bind (run_mapM fun column _ => rfl) fun indexes located => ?_
  have rows : (marked mask table.rows).mapM (pick? indexes) =
      some ((marked mask table.rows).map (pick indexes)) := by
    refine mapM_eq_some fun row member => pick?_eq fun index inside => ?_
    obtain ⟨column, -, found⟩ := Work.exists_of_mem_mapM located inside
    rw [regular.wide row (mem_of_mem_marked member)]
    exact columnIndex?_lt (requireColumn_eq_ok_iff.mp found)
  rw [run_access_bind rows]
  rfl

theorem select?_eq (regular : table.Regular) (names : Option (List String))
    {condition : Option Condition}
    (quoted : ∀ filter, condition = some filter → filter.WellQuoted) :
    (table.select? names condition).run = some (table.select names condition) := by
  cases condition with
  | none => exact project?_eq regular _ _
  | some condition =>
      exact run_bind (Condition.mask?_eq regular (quoted _ rfl)) fun mask _ =>
        project?_eq regular _ _

theorem target?_eq {assignment : String × Literal} (quoted : assignment.2.WellQuoted) :
    (table.target? assignment).run = some (table.target assignment) := by
  unfold target?
  rw [run_access_bind (assignment.2.text?_eq quoted)]
  cases found : table.target assignment with
  | error error => rfl
  | ok target =>
      rw [run_check_ok_bind, ← (target_eq_ok found).2.2]
      rfl

theorem assignCells?_eq {targets : List (Nat × String)} {row : Row}
    (inside : ∀ target ∈ targets, target.1 < row.length) :
    assignCells? targets row = some (assignCells targets row) := by
  induction targets generalizing row with
  | nil => rfl
  | cons target rest inductionHypothesis =>
      have others := @inductionHypothesis (row.set target.1 target.2) fun other member => by
        rw [List.length_set]
        exact inside other (.tail _ member)
      rw [assignCells?, List.foldlM_cons, if_pos (inside target List.mem_cons_self)]
      exact others

theorem update?_eq (regular : table.Regular) {assignments : List (String × Literal)}
    {condition : Condition} (quoted : ∀ assignment ∈ assignments, assignment.2.WellQuoted)
    (filter : condition.WellQuoted) :
    (table.update? assignments condition).run = some (table.update assignments condition) := by
  unfold update? update
  refine run_bind (run_mapM fun assignment member => target?_eq (quoted assignment member))
    fun targets located => ?_
  refine run_bind (Condition.mask?_eq regular filter) fun mask _ => ?_
  have rows : ((table.rows.zip mask).mapM fun marked =>
        if marked.2 then assignCells? targets marked.1 else some marked.1) =
      some ((table.rows.zip mask).map fun marked =>
        if marked.2 then assignCells targets marked.1 else marked.1) := by
    refine mapM_eq_some fun marked member => ?_
    have present : marked.1 ∈ table.rows := (List.of_mem_zip member).1
    have inside : ∀ target ∈ targets, target.1 < marked.1.length := by
      intro target assigned
      obtain ⟨assignment, -, found⟩ := Work.exists_of_mem_mapM located assigned
      rw [regular.wide _ present]
      exact columnIndex?_lt (target_eq_ok found).2.1
    rw [assignCells?_eq inside]
    split <;> rfl
  rw [run_access_bind rows, run_check]

theorem delete?_eq (regular : table.Regular) {condition : Condition}
    (filter : condition.WellQuoted) :
    (table.delete? condition).run = some (table.delete condition) :=
  run_bind (Condition.mask?_eq regular filter) fun _ _ => rfl

theorem partners?_eq {firstKey secondKey : Nat} {left : Row} {rows : List Row}
    (inLeft : firstKey < left.length) (inside : ∀ row ∈ rows, secondKey < row.length) :
    partners? firstKey secondKey left rows =
      some ((rows.filter fun right => left.getD firstKey "" == right.getD secondKey "").map
        fun right => (left, right)) := by
  induction rows with
  | nil => rfl
  | cons right rest inductionHypothesis =>
      have others := inductionHypothesis fun row member => inside row (.tail _ member)
      have inRight := inside right List.mem_cons_self
      rw [partners?, others, List.getElem?_eq_getElem inLeft, List.getElem?_eq_getElem inRight]
      rw [List.filter_cons, List.getD_eq_getElem _ _ inLeft, List.getD_eq_getElem _ _ inRight]
      simp only [Option.bind_eq_bind, Option.bind_some, Option.pure_def]
      split <;> rfl

theorem join?_eq {first second : Table} (firstRegular : first.Regular)
    (secondRegular : second.Regular) {firstKey secondKey : Nat}
    (inFirst : firstKey < first.columns.length) (inSecond : secondKey < second.columns.length) :
    first.join? second firstKey secondKey = some (first.join second firstKey secondKey) := by
  have pairs : agreeingPairs? firstKey secondKey first.rows second.rows =
      some (agreeingPairs firstKey secondKey first.rows second.rows) := by
    have each : ∀ left ∈ first.rows, partners? firstKey secondKey left second.rows = some _ :=
      fun left member => partners?_eq (firstRegular.wide left member ▸ inFirst)
        fun right inside => secondRegular.wide right inside ▸ inSecond
    rw [agreeingPairs?, mapM_eq_some each, Option.map_some, agreeingPairs, List.flatMap]
  rw [join?, pairs]
  rfl

end Table

theorem Database.join?_eq {database : Database}
    (regular : ∀ table ∈ database.tables, table.Regular) (first second : String)
    (references : List Attribute) :
    (database.join? first second references).run =
      some (database.join first second references) := by
  unfold join? join
  refine run_bind rfl fun firstTable firstFound => run_bind rfl fun secondTable secondFound => ?_
  refine run_bind rfl fun columns _ => ?_
  refine run_bind rfl fun firstKey firstAt => run_bind rfl fun secondKey secondAt => ?_
  have bound : ∀ {table : Table} {name : String} {index : Nat},
      (table.requireColumn name).mapError Error.schema = .ok index →
        index < table.columns.length := fun found =>
    Table.columnIndex?_lt (Table.requireColumn_eq_ok_iff.mp (Work.mapError_eq_ok_iff.mp found))
  have pairs := Table.join?_eq (regular _ (table_eq_ok firstFound).1)
    (regular _ (table_eq_ok secondFound).1) (bound firstAt) (bound secondAt)
  rw [pairs]
  rfl

end TextTables
