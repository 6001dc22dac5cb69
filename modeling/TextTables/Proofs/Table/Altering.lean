import TextTables.Proofs.Table.KeyColumn
import TextTables.Proofs.Table.Projection

/-!
# What altering a column does to the others

Columns are found by their names, and cells stand where their columns do. So a column that is added
or dropped moves the others in the header and in all rows alike, and each of them shows what it
showed before. A column that was added and is dropped again has left nothing behind.
-/

namespace TextTables.Table

open Text

/-- The column stands behind all others, and is empty. -/
structure Adds (column : String) (table changed : Table) : Prop where
  name : changed.name = table.name
  lastKey : changed.lastKey = table.lastKey
  columns : changed.columns = table.columns ++ [column]
  rows : changed.rows = table.rows.map fun row => row ++ [nullCell]
  others : ∀ other, ¬ sameIgnoringCase other column →
    changed.project [other] none = table.project [other] none
  shown : ∀ called, sameIgnoringCase called column →
    changed.project [called] none = .ok ⟨[column], table.rows.map fun _ => [nullCell]⟩

/-- The column is gone with its cell in every row, and rows are one cell shorter. -/
structure Drops (column : String) (table changed : Table) : Prop where
  name : changed.name = table.name
  lastKey : changed.lastKey = table.lastKey
  shape : ∃ index, table.columnIndex? column = some index ∧
    changed.columns = table.columns.eraseIdx index ∧
    changed.rows = table.rows.map fun row => row.eraseIdx index
  others : ∀ other, ¬ sameIgnoringCase other column →
    changed.project [other] none = table.project [other] none
  unknown : ∀ called, sameIgnoringCase called column →
    changed.requireColumn called = .error (.unknownColumn called) ∧
      changed.project [called] none = .error (.unknownColumn called)
  insertion : ∀ cells, (∃ reason, changed.insert cells = .error reason) ↔
    cells.length + 2 ≠ table.columns.length

variable {table changed : Table} {column other called : String} {index : Nat}

/-- A column that is asked for alone shows its cells under its name. -/
theorem project_single (regular : table.Regular) (called : String) :
    table.project [called] none =
      match table.columnIndex? called with
      | none => .error (.unknownColumn called)
      | some index =>
          .ok ⟨[table.columns.getD index ""], table.rows.map fun row => [row.getD index ""]⟩ := by
  rw [project_eq regular]
  cases found : table.columnIndex? called with
  | none => simp [lacks_iff.mpr found]
  | some index =>
      have known := not_lacks_of_columnIndex? found
      have spot : table.position called = index := by rw [position, found, Option.getD_some]
      simp only [List.find?_cons, List.find?_nil, known, List.map_cons, List.map_nil, heading, spot,
        marked]
      rfl

theorem project_single_of_lacks (regular : table.Regular) (missing : table.lacks called) :
    table.project [called] none = .error (.unknownColumn called) := by
  rw [project_single regular, lacks_iff.mp missing]

theorem refused_insert_iff {cells : Row} :
    (∃ reason, table.insert cells = .error reason) ↔ cells.length + 1 ≠ table.columns.length := by
  unfold insert
  rw [← not_iff_not, not_ne_iff, ← checkWidth_eq_ok_iff]
  cases table.checkWidth (cells.length + 1) <;> simp [bind, Except.bind, pure, Except.pure]

section Adding

/-- A new last column is found under its own name, and the others where they were. -/
theorem columnIndex?_of_append (fresh : ∀ old ∈ table.columns, ¬ sameIgnoringCase old column)
    (columns : changed.columns = table.columns ++ [column]) (called : String) :
    changed.columnIndex? called =
      if sameIgnoringCase called column then some table.columns.length
      else table.columnIndex? called := by
  unfold columnIndex?
  rw [columns, List.findIdx?_append, List.findIdx?_singleton, sameIgnoringCase_comm column called]
  by_cases same : sameIgnoringCase called column
  · have none : table.columns.findIdx? (fun old => sameIgnoringCase old called) = none := by
      refine List.findIdx?_eq_none_iff.mpr fun old member => ?_
      rw [Bool.eq_false_iff]
      exact fun alike => fresh old member (sameIgnoringCase_trans alike same)
    simp [none, same]
  · simp [same]

theorem adds_of_addColumn (regular : table.Regular)
    (added : table.addColumn column = .ok changed) : Adds column table changed := by
  have regularAfter := regular.addColumn added
  obtain ⟨-, fresh, made⟩ := addColumn_eq_ok added
  have columns : changed.columns = table.columns ++ [column] := by rw [made]
  have rows : changed.rows = table.rows.map fun row => row ++ [nullCell] := by rw [made]
  have found := columnIndex?_of_append fresh columns
  refine ⟨by rw [made], by rw [made], columns, rows, fun other differs => ?_, fun called same => ?_⟩
  · rw [project_single regularAfter, project_single regular, found, if_neg differs, columns, rows]
    cases stands : table.columnIndex? other with
    | none => rfl
    | some index =>
        have inside := columnIndex?_lt stands
        simp only [List.getD_append _ _ _ _ inside, List.map_map, Except.ok.injEq,
          ResultSet.mk.injEq, true_and]
        refine List.map_congr_left fun row member => ?_
        have reaches : index < row.length := regular.wide row member ▸ inside
        rw [Function.comp_apply, List.getD_append _ _ _ _ reaches]
  · rw [project_single regularAfter, found, if_pos same, columns, rows]
    simp only [List.getD_append_right _ _ _ _ le_rfl, List.map_map, Except.ok.injEq,
      ResultSet.mk.injEq]
    refine ⟨by simp, List.map_congr_left fun row member => ?_⟩
    have ends := regular.wide row member
    rw [Function.comp_apply, List.getD_append_right _ _ _ _ ends.le, ends]
    simp

/-- A column that was added can be dropped under its name in any letter case, and then the table is
what it was. -/
theorem dropColumn_of_addColumn (regular : table.Regular) (keyed : table.Keyed)
    (added : table.addColumn column = .ok changed) (same : sameIgnoringCase called column) :
    changed.dropColumn called = .ok table := by
  obtain ⟨-, fresh, made⟩ := addColumn_eq_ok added
  have columns : changed.columns = table.columns ++ [column] := by rw [made]
  have noKey : ¬ sameIgnoringCase called primaryKey := by
    intro isKey
    obtain ⟨first, heads, spelled⟩ := keyed
    refine fresh first (List.mem_of_mem_head? heads) ?_
    rw [sameIgnoringCase_comm] at isKey
    exact sameIgnoringCase_trans (sameIgnoringCase_trans spelled isKey) same
  have found := columnIndex?_of_append fresh columns called
  rw [if_pos same] at found
  have shorter : ∀ {items : List String} (last : String),
      (items ++ [last]).eraseIdx items.length = items := by
    intro items last
    rw [List.eraseIdx_append_of_length_le le_rfl, Nat.sub_self]
    simp
  have rows : (table.rows.map fun row => row ++ [nullCell]).map
      (fun row => row.eraseIdx table.columns.length) = table.rows := by
    rw [List.map_map]
    refine (List.map_congr_left fun row member => ?_).trans (List.map_id _)
    rw [Function.comp_apply, ← regular.wide row member, shorter, id]
  rw [dropColumn, if_neg noKey, found]
  simp only [made, shorter, rows]

end Adding

section Dropping

/-- Where an item stands when an earlier or a later one is gone. -/
def shifted (gone index : Nat) : Nat :=
  if index < gone then index else index - 1

theorem getElem?_eraseIdx_shifted {Item : Type} (items : List Item) {gone : Nat}
    (apart : index ≠ gone) : (items.eraseIdx gone)[shifted gone index]? = items[index]? := by
  rw [List.getElem?_eraseIdx, shifted]
  by_cases before : index < gone
  · rw [if_pos before, if_pos before]
  · have behind : ¬ index - 1 < gone := by omega
    have same : index - 1 + 1 = index := by omega
    rw [if_neg before, if_neg behind, same]

/-- Columns of different names stand at different positions. -/
theorem ne_of_columnIndex? {gone : Nat} (regular : table.Regular)
    (stood : table.columnIndex? column = some gone) (found : table.columnIndex? other = some index)
    (differs : ¬ sameIgnoringCase other column) : index ≠ gone := by
  rintro rfl
  have bound := columnIndex?_lt stood
  have there := (columnIndex?_eq_some_iff regular.distinct bound).mp stood
  have same := (columnIndex?_eq_some_iff regular.distinct bound).mp found
  rw [sameIgnoringCase_comm] at same
  exact differs (sameIgnoringCase_trans same there)

/-- The other columns are found where they have moved to. -/
theorem columnIndex?_of_eraseIdx {gone : Nat} (regular : table.Regular)
    (regularAfter : changed.Regular) (stood : table.columnIndex? column = some gone)
    (columns : changed.columns = table.columns.eraseIdx gone)
    (differs : ¬ sameIgnoringCase other column) :
    changed.columnIndex? other = (table.columnIndex? other).map (shifted gone) := by
  cases found : table.columnIndex? other with
  | none =>
      have missing : table.lacks other := lacks_iff.mpr found
      have stillMissing : changed.lacks other := by
        refine List.all_eq_true.mpr fun name member => ?_
        rw [columns] at member
        exact List.all_eq_true.mp missing name (List.mem_of_mem_eraseIdx member)
      exact lacks_iff.mp stillMissing
  | some index =>
      have inside := columnIndex?_lt found
      have same := (columnIndex?_eq_some_iff regular.distinct inside).mp found
      have apart := ne_of_columnIndex? regular stood found differs
      have moved : changed.columns[shifted gone index]? = some table.columns[index] := by
        rw [columns, getElem?_eraseIdx_shifted _ apart, List.getElem?_eq_getElem inside]
      obtain ⟨bound, spelled⟩ := List.getElem?_eq_some_iff.mp moved
      refine (columnIndex?_eq_some_iff regularAfter.distinct bound).mpr ?_
      rwa [spelled]

theorem lacks_of_eraseIdx {gone : Nat} (regular : table.Regular)
    (stood : table.columnIndex? column = some gone)
    (columns : changed.columns = table.columns.eraseIdx gone)
    (same : sameIgnoringCase called column) : changed.lacks called := by
  refine List.all_eq_true.mpr fun name member => ?_
  rw [columns, List.mem_eraseIdx_iff_getElem] at member
  obtain ⟨index, inside, apart, rfl⟩ := member
  rw [Bool.not_eq_true', Bool.eq_false_iff]
  intro alike
  have again : sameIgnoringCase table.columns[index] column := sameIgnoringCase_trans alike same
  have found := (columnIndex?_eq_some_iff regular.distinct inside).mpr again
  exact apart (Option.some.inj (found.symm.trans stood))

theorem drops_of_dropColumn (regular : table.Regular)
    (dropped : table.dropColumn column = .ok changed) : Drops column table changed := by
  have regularAfter := regular.dropColumn dropped
  obtain ⟨-, gone, stood, made⟩ := dropColumn_eq_ok dropped
  have columns : changed.columns = table.columns.eraseIdx gone := by rw [made]
  have rows : changed.rows = table.rows.map fun row => row.eraseIdx gone := by rw [made]
  have bound := columnIndex?_lt stood
  refine ⟨by rw [made], by rw [made], ⟨gone, stood, columns, rows⟩, fun other differs => ?_,
    fun called same => ?_, fun cells => ?_⟩
  · rw [project_single regularAfter, project_single regular,
      columnIndex?_of_eraseIdx regular regularAfter stood columns differs, columns, rows]
    cases found : table.columnIndex? other with
    | none => rfl
    | some index =>
        have apart := ne_of_columnIndex? regular stood found differs
        have moved : ∀ items : List String,
            (items.eraseIdx gone).getD (shifted gone index) "" = items.getD index "" := by
          intro items
          rw [List.getD_eq_getElem?_getD, getElem?_eraseIdx_shifted _ apart,
            List.getD_eq_getElem?_getD]
        simp only [Option.map_some, moved, List.map_map, Function.comp_def]
  · have missing := lacks_of_eraseIdx regular stood columns same
    refine ⟨?_, project_single_of_lacks regularAfter missing⟩
    rw [requireColumn, lacks_iff.mp missing]
  · rw [refused_insert_iff, columns, List.length_eraseIdx_of_lt bound]
    omega

end Dropping

end TextTables.Table
