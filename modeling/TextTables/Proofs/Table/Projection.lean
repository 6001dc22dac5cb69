import TextTables.Proofs.Condition.Masks
import TextTables.Proofs.Table.Regular

/-!
# What queries show of a table

A query is refused for a column of its condition that the table lacks, if there are any rows, and
else for a column that it asks for. Otherwise it shows the cells under the columns that it asks for,
in the rows on which the condition holds.
-/

namespace TextTables.Table

open Text Work

/-- The position of the column, as far as there is one. -/
def position (table : Table) (name : String) : Nat :=
  (table.columnIndex? name).getD 0

/-- The name of the column, as the header spells it. -/
def heading (table : Table) (name : String) : String :=
  table.columns.getD (table.position name) ""

variable {table changed : Table} {names : List String} {condition : Condition}
  {mask : Option (List Bool)} {cells : Row} {name column : String} {index : Nat}

/-- A name is found at a position exactly if the column there has it. -/
theorem columnIndex?_eq_some_iff (distinct : Distinct table.columns)
    (inside : index < table.columns.length) :
    table.columnIndex? name = some index ↔ sameIgnoringCase table.columns[index] name := by
  constructor
  · intro found
    obtain ⟨_, same, -⟩ := List.findIdx?_eq_some_iff_getElem.mp found
    exact same
  · intro same
    refine List.findIdx?_eq_some_iff_getElem.mpr ⟨inside, same, fun earlier before also => ?_⟩
    rw [sameIgnoringCase_comm] at same
    exact List.pairwise_iff_getElem.mp distinct earlier index _ inside before
      (sameIgnoringCase_trans also same)

theorem not_lacks_of_mem (member : column ∈ table.columns) : ¬ table.lacks column := by
  intro lacks
  have differ := List.all_eq_true.mp lacks column member
  rw [sameIgnoringCase_self] at differ
  cases differ

theorem not_lacks_of_columnIndex? (found : table.columnIndex? name = some index) :
    ¬ table.lacks name := by
  rw [lacks_iff, found]
  exact nofun

theorem columnIndex?_eq_position (known : ¬ table.lacks name) :
    table.columnIndex? name = some (table.position name) := by
  rw [lacks_iff] at known
  obtain ⟨index, found⟩ := Option.ne_none_iff_exists'.mp known
  rw [position, found, Option.getD_some]

/-- The cell under a column of the header stands at its position. -/
theorem cell?_of_getElem? (regular : table.Regular) (stands : table.columns[index]? = some column)
    (same : sameIgnoringCase column name) (row : Row) :
    table.cell? row name = row[index]? ∧ ¬ table.lacks name := by
  obtain ⟨inside, rfl⟩ := List.getElem?_eq_some_iff.mp stands
  have found := (columnIndex?_eq_some_iff regular.distinct inside).mpr same
  exact ⟨cell?_of_columnIndex? found, not_lacks_of_columnIndex? found⟩

theorem requireColumn_heading (regular : table.Regular) (known : ¬ table.lacks name) :
    table.requireColumn (table.heading name) = .ok (table.position name) := by
  have inside := columnIndex?_lt (columnIndex?_eq_position known)
  rw [heading, List.getD_eq_getElem _ _ inside]
  exact requireColumn_eq_ok_iff.mpr (columnIndex?_getElem regular.distinct inside)

theorem declared_eq (regular : table.Regular) (name : String) :
    table.declared name =
      ((Option.guard table.lacks name).map .unknownColumn).elim (.ok (table.heading name))
        .error := by
  by_cases missing : table.lacks name
  · rw [declared, requireColumn, lacks_iff.mp missing, Option.guard, if_pos missing]
    rfl
  · have found := columnIndex?_eq_position missing
    have inside := columnIndex?_lt found
    have free : isReserved (table.heading name) = false := by
      rw [heading, List.getD_eq_getElem _ _ inside]
      exact regular.unreserved _ (List.getElem_mem inside)
    rw [declared, requireColumn_eq_ok_iff.mpr found, Option.guard, if_neg missing]
    change (if isReserved (table.heading name) then _ else _) = _
    rw [free]
    rfl

/-- The first column that the table lacks is reported. -/
theorem project_eq (regular : table.Regular) (names : List String) (mask : Option (List Bool)) :
    table.project names mask =
      match names.find? table.lacks with
      | some column => .error (.unknownColumn column)
      | none => .ok ⟨names.map table.heading,
          (marked mask table.rows).map (pick (names.map table.position))⟩ := by
  have refused : names.findSome? (fun name => (Option.guard table.lacks name).map
      SchemaError.unknownColumn) = (names.find? table.lacks).map .unknownColumn := by
    rw [← List.findSome?_guard]
    exact List.map_findSome?.symm
  rw [project, mapM_eq_findSome? (declared_eq regular), refused]
  cases missing : names.find? table.lacks with
  | some column => rfl
  | none =>
      have known : ∀ name ∈ names, ¬ table.lacks name := List.find?_eq_none.mp missing
      have located : (names.map table.heading).mapM table.requireColumn =
          .ok (names.map table.position) := by
        rw [List.mapM_map]
        exact mapM_eq_ok fun name member => requireColumn_heading regular (known name member)
      change ((names.map table.heading).mapM table.requireColumn >>= _) = _
      rw [located]
      rfl

theorem marked_truth (rows : List Row) (holds : Row → Bool) :
    marked (some (rows.map holds)) rows = rows.filter holds := by
  rw [marked, zip_map_self, List.filter_map, List.map_map]
  exact List.map_id _

/-- A query whose condition can be evaluated is refused for the first column that the table lacks,
or it shows the rows on which the condition holds. -/
theorem select_eq (regular : table.Regular) (evaluable : condition.IsEvaluable table)
    (names : List String) :
    table.select (some names) (some condition) =
      match names.find? table.lacks with
      | some column => .error (.unknownColumn column)
      | none => .ok ⟨names.map table.heading,
          (table.rows.filter fun row => condition.truth (table.cell? row)).map
            (pick (names.map table.position))⟩ := by
  have evaluated := (Condition.mask_eq_ok_iff regular.wide).mpr ⟨evaluable, rfl⟩
  rw [select, evaluated]
  change table.project names (some _) = _
  rw [project_eq regular, marked_truth]

theorem select_eq_ok (regular : table.Regular) (evaluable : condition.IsEvaluable table)
    (known : ∀ name ∈ names, ¬ table.lacks name) :
    table.select (some names) (some condition) = .ok ⟨names.map table.heading,
      (table.rows.filter fun row => condition.truth (table.cell? row)).map
        (pick (names.map table.position))⟩ := by
  rw [select_eq regular evaluable, List.find?_eq_none.mpr known]

theorem refused_project_iff (regular : table.Regular) :
    (∃ error, table.project names mask = .error error) ↔ ∃ name ∈ names, table.lacks name := by
  rw [project_eq regular]
  cases missing : names.find? table.lacks with
  | some column => simpa using ⟨column, List.mem_of_find?_eq_some missing, List.find?_some missing⟩
  | none => simpa using missing

/-- A query is refused for its condition or for the columns that it asks for. -/
theorem refused_select_iff (regular : table.Regular) {asked : Option (List String)} :
    (∃ error, table.select asked (some condition) = .error error) ↔
      ¬ condition.IsEvaluable table ∨ ∃ name ∈ table.chosen asked, table.lacks name := by
  rw [← Condition.refused_mask_iff regular.wide]
  dsimp only [select]
  cases evaluated : condition.mask table with
  | error error => simp [bind, Except.bind]
  | ok marks => simpa [bind, Except.bind] using refused_project_iff regular

/-- A query shows of a table with one more row what it showed before, and behind it the row if the
condition holds on it. -/
theorem select_of_insert (regular : table.Regular) (inserted : table.insert cells = .ok changed)
    (names : List String) (condition : Condition) (known : ∀ name ∈ names, ¬ table.lacks name)
    (evaluable : ∀ column ∈ condition.columns, ¬ table.lacks column) :
    ∃ rows, table.select (some names) (some condition) = .ok ⟨names.map table.heading, rows⟩ ∧
      changed.select (some names) (some condition) = .ok ⟨names.map table.heading,
        rows ++ if condition.truth (table.cell? (toString (table.lastKey + 1) :: cells)) then
          [pick (names.map table.position) (toString (table.lastKey + 1) :: cells)] else []⟩ := by
  have regularAfter := regular.insert inserted
  obtain ⟨-, rfl⟩ := insert_eq_ok inserted
  have evaluableAfter : ∀ rows lastKey,
      condition.IsEvaluable { table with rows := rows, lastKey := lastKey } :=
    fun _ _ _ => evaluable
  refine ⟨_, select_eq_ok regular (fun _ => evaluable) known, ?_⟩
  rw [select_eq_ok regularAfter (evaluableAfter _ _) known, List.filter_append, List.map_append,
    List.filter_singleton]
  have last : ∀ (held : Bool) (shown : Row → Row) (row : Row),
      (bif held then [row] else []).map shown = if held then [shown row] else [] := by
    intro held shown row
    cases held <;> rfl
  exact congrArg (fun shown => Except.ok (ResultSet.mk (names.map table.heading) (_ ++ shown)))
    (last _ _ _)

end TextTables.Table
