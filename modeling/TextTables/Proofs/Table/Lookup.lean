import TextTables.Proofs.Table.Columns

/-!
# Columns and cells that are looked up

A name finds the first column that is spelled so, and its cell stands at the same position of the
row. Where no column comes twice, every column finds itself, and asking for all of them gives whole
rows.
-/

namespace TextTables

open Text

namespace Table

/-- No column of the table has the name, with ASCII letters in either case. -/
def lacks (table : Table) (name : String) : Bool :=
  table.columns.all fun column => !sameIgnoringCase column name

/-- The cell of the row under the column of the name, with ASCII letters in either case. -/
def cell? (table : Table) (row : Row) (name : String) : Option String :=
  ((table.columns.zip row).find? fun labelled => sameIgnoringCase labelled.1 name).map Prod.snd

variable {table : Table} {row : Row} {name : String} {index : Nat}

theorem lacks_iff : table.lacks name ↔ table.columnIndex? name = none := by
  simp [lacks, columnIndex?]

/-- Beside the first column that passes the test stands the cell at its position. -/
theorem map_find?_zip {columns : List String} {test : String → Bool}
    (found : columns.findIdx? test = some index) :
    ((columns.zip row).find? fun labelled => test labelled.1).map Prod.snd = row[index]? := by
  induction columns generalizing row index with
  | nil => cases found
  | cons column rest inductionHypothesis =>
      cases row with
      | nil => rfl
      | cons cell cells =>
          rw [List.findIdx?_cons] at found
          cases passed : test column with
          | true =>
              rw [passed] at found
              cases found
              simp [passed]
          | false =>
              simp only [passed, Bool.false_eq_true, if_false, Option.map_eq_some_iff] at found
              obtain ⟨index, later, rfl⟩ := found
              simpa [passed] using inductionHypothesis later

theorem cell?_of_columnIndex? (found : table.columnIndex? name = some index) :
    table.cell? row name = row[index]? :=
  map_find?_zip found

/-- Each column is found at its own position. -/
theorem columnIndex?_getElem (distinct : Distinct table.columns)
    (inside : index < table.columns.length) :
    table.columnIndex? table.columns[index] = some index := by
  refine List.findIdx?_eq_some_iff_getElem.mpr ⟨inside, sameIgnoringCase_self _, ?_⟩
  intro earlier before
  exact List.pairwise_iff_getElem.mp distinct _ _ _ _ before

/-- Looking up all positions in order gives the list. -/
theorem map_getD_range {Item : Type} (items : List Item) (default : Item) :
    (List.range items.length).map (fun place => items.getD place default) = items := by
  refine List.ext_getElem (by simp) fun place _ inside => ?_
  rw [List.getElem_map, List.getElem_range, List.getD_eq_getElem _ _ inside]

@[simp]
theorem length_pick (indexes : List Nat) (row : Row) : (pick indexes row).length = indexes.length :=
  List.length_map _

theorem pick_range (row : Row) : pick (List.range row.length) row = row :=
  map_getD_range row ""

theorem mem_of_mem_marked {mask : Option (List Bool)} {rows : List Row}
    (member : row ∈ marked mask rows) : row ∈ rows := by
  cases mask with
  | none => exact member
  | some mask =>
      obtain ⟨⟨other, mark⟩, inside, rfl⟩ := List.mem_map.mp member
      exact (List.of_mem_zip (List.mem_filter.mp inside).1).1

end Table

end TextTables
