import TextTables.Proofs.Condition.Evaluation
import TextTables.Proofs.Table.Regular

/-!
# Rows that a condition sets apart

A query for all columns shows the rows on which a condition holds, and a deletion leaves the others,
so that the two together are the table. On what a deletion leaves, the condition holds nowhere.
-/

namespace TextTables

open Text Work

/-- The third list takes its items from the other two, from each of them in order. -/
inductive Interleaved {Item : Type} : List Item → List Item → List Item → Prop
  | nil : Interleaved [] [] []
  | first {item : Item} {left right whole : List Item} (rest : Interleaved left right whole) :
      Interleaved (item :: left) right (item :: whole)
  | second {item : Item} {left right whole : List Item} (rest : Interleaved left right whole) :
      Interleaved left (item :: right) (item :: whole)

namespace Table

variable {table changed : Table} {condition : Condition} {mask : List Bool} {result : ResultSet}

/-- A mask that is as long as the rows sends each of them to one side. -/
theorem interleaved_marked {rows : List Row} (size : mask.length = rows.length) :
    Interleaved (marked (some mask) rows) (unmarked mask rows) rows := by
  induction rows generalizing mask with
  | nil => simpa [marked, unmarked] using Interleaved.nil
  | cons row rest inductionHypothesis =>
      cases mask with
      | nil => cases size
      | cons mark marks =>
          have others := inductionHypothesis (Nat.succ.inj size)
          cases mark with
          | true => exact others.first
          | false => exact others.second

theorem mapM_declared (regular : table.Regular) :
    table.columns.mapM table.declared = .ok table.columns := by
  have each : ∀ column ∈ table.columns, table.declared column = .ok column := by
    intro column member
    obtain ⟨index, inside, rfl⟩ := List.getElem_of_mem member
    have found := requireColumn_eq_ok_iff.mpr (columnIndex?_getElem regular.distinct inside)
    rw [Table.declared, found]
    simp [bind, Except.bind, pure, Except.pure, inside, regular.unreserved _ member]
  rw [mapM_eq_ok each, List.map_id']

theorem mapM_requireColumn (regular : table.Regular) :
    table.columns.mapM table.requireColumn = .ok (List.range table.columns.length) := by
  have each : ∀ column ∈ table.columns,
      table.requireColumn column = .ok ((table.columnIndex? column).getD 0) := by
    intro column member
    obtain ⟨index, inside, rfl⟩ := List.getElem_of_mem member
    have found := columnIndex?_getElem regular.distinct inside
    rw [found]
    exact requireColumn_eq_ok_iff.mpr found
  rw [mapM_eq_ok each]
  refine congrArg Except.ok (List.ext_getElem (by simp) fun index inside _ => ?_)
  rw [List.length_map] at inside
  rw [List.getElem_map, List.getElem_range, columnIndex?_getElem regular.distinct inside]
  rfl

theorem map_pick_marked (regular : table.Regular) (mask : Option (List Bool)) :
    (marked mask table.rows).map (pick (List.range table.columns.length)) =
      marked mask table.rows := by
  have each : ∀ row ∈ marked mask table.rows,
      pick (List.range table.columns.length) row = row := by
    intro row member
    rw [← regular.wide row (mem_of_mem_marked member), pick_range]
  rw [List.map_congr_left each, List.map_id']

/-- A query for the columns of the header shows whole rows. -/
theorem project_columns (regular : table.Regular) (mask : Option (List Bool)) :
    table.project table.columns mask = .ok ⟨table.columns, marked mask table.rows⟩ := by
  rw [project, mapM_declared regular]
  change (table.columns.mapM table.requireColumn >>= _) = _
  rw [mapM_requireColumn regular]
  exact congrArg (fun rows => Except.ok (ResultSet.mk table.columns rows))
    (map_pick_marked regular mask)

theorem select_all_eq_ok_iff (regular : table.Regular) :
    table.select none (some condition) = .ok result ↔
      ∃ mask, condition.mask table = .ok mask ∧
        result = ⟨table.columns, marked (some mask) table.rows⟩ := by
  simp only [select, except_bind_eq_ok_iff, chosen, project_columns regular, Except.ok.injEq,
    @eq_comm _ _ result]

/-- A mask without a mark marks no row. -/
theorem marked_none (rows : List Row) : marked (some (rows.map fun _ => false)) rows = [] := by
  rw [marked, List.map_eq_nil_iff, List.filter_eq_nil_iff]
  rintro ⟨row, mark⟩ member
  have unset := (List.of_mem_zip member).2
  simp_all

/-- What a query for all columns shows and what a deletion leaves are the table. -/
theorem interleaved_of_delete (regular : table.Regular)
    (selected : table.select none (some condition) = .ok result)
    (deleted : table.delete condition = .ok changed) :
    Interleaved result.rows changed.rows table.rows ∧ result.columns = table.columns ∧
      changed = { table with rows := changed.rows } := by
  obtain ⟨mask, evaluated, rfl⟩ := (select_all_eq_ok_iff regular).mp selected
  obtain ⟨again, evaluatedAgain, replaced⟩ := delete_eq_ok deleted
  cases evaluated.symm.trans evaluatedAgain
  obtain ⟨-, rfl⟩ := replaceRows_eq_ok replaced
  exact ⟨interleaved_marked (length_of_mapM evaluated), rfl, rfl⟩

/-- On the rows that a deletion leaves, the condition does not hold. -/
theorem select_of_delete (regular : table.Regular)
    (deleted : table.delete condition = .ok changed) :
    changed.select none (some condition) = .ok ⟨table.columns, []⟩ := by
  have regularAfter := regular.delete deleted
  obtain ⟨mask, evaluated, replaced⟩ := delete_eq_ok deleted
  obtain ⟨wide, rfl⟩ := replaceRows_eq_ok replaced
  have fails : ∀ row ∈ unmarked mask table.rows,
      condition.evaluate { table with rows := unmarked mask table.rows } row = .ok false := by
    intro row member
    have same : condition.evaluate { table with rows := unmarked mask table.rows } row =
        condition.evaluate table row :=
      Condition.evaluate_congr (by rfl) (wide row member) condition
    obtain ⟨⟨_, mark⟩, inside, rfl⟩ := List.mem_map.mp member
    obtain ⟨paired, unset⟩ := List.mem_filter.mp inside
    rw [same, eq_ok_of_mem_zip evaluated paired]
    simpa using unset
  refine (select_all_eq_ok_iff regularAfter).mpr ⟨_, mapM_eq_ok fails, ?_⟩
  rw [marked_none]

end Table

end TextTables
