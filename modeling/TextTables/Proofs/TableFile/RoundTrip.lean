import TextTables.Proofs.Number.Decimal
import TextTables.Proofs.TableFile.Reading
import TextTables.Proofs.Text.Blanks
import TextTables.Proofs.Text.Cells

/-!
# Table files are read back as they were written

The text of a table separates lines by line feeds and cells by tabs, and marks nothing else. It
is read back whole as long as the separators stand in no cell and no line is empty. The other
file holds the last primary key in decimal, of which 64 bits are read back.
-/

namespace TextTables

open Text

namespace Table

theorem dropReturn_eq_self_iff {line : List Char} :
    dropReturn line = line ↔ line.getLast? ≠ some '\r' := by
  unfold dropReturn
  split
  · rename_i ended
    refine iff_of_false (fun same => ?_) (not_not_intro ended)
    have whole := List.dropLast_append_getLast? '\r' ended
    rw [same] at whole
    simp at whole
  · rename_i plain
    exact iff_of_true rfl plain

theorem dropLast_append_last (texts : List (List Char)) :
    texts.dropLast ++ texts.getLast?.toList = texts := by
  cases last : texts.getLast? with
  | none => simp [List.getLast?_eq_none_iff.mp last]
  | some text => exact List.dropLast_append_getLast? text last

/-- Lines without line feeds are told apart again. All but the last one lose a carriage return. -/
theorem lines_intercalate_eq {texts : List (List Char)} (nonempty : texts ≠ [])
    (lineFeedFree : ∀ text ∈ texts, '\n' ∉ text) :
    lines (['\n'].intercalate texts) =
      texts.dropLast.map dropReturn ++ texts.getLast?.toList := by
  simp only [lines, List.splitOn_intercalate '\n' lineFeedFree nonempty]

/-- The lines keep all their characters if none but the last one ends in a carriage return. -/
theorem lines_intercalate_eq_self_iff {texts : List (List Char)} (nonempty : texts ≠ [])
    (lineFeedFree : ∀ text ∈ texts, '\n' ∉ text) :
    lines (['\n'].intercalate texts) = texts ↔
      ∀ text ∈ texts.dropLast, text.getLast? ≠ some '\r' := by
  have kept : texts.dropLast.map dropReturn = texts.dropLast ↔
      ∀ text ∈ texts.dropLast, text.getLast? ≠ some '\r' := by
    conv_lhs => rhs; rw [← List.map_id texts.dropLast]
    simp only [List.map_inj_left, id, dropReturn_eq_self_iff]
  rw [lines_intercalate_eq nonempty lineFeedFree, ← kept]
  conv_lhs => rhs; rw [← dropLast_append_last texts]
  exact List.append_left_inj _

/-- Lines without line feeds and carriage returns are told apart again. -/
theorem lines_intercalate {texts : List (List Char)} (nonempty : texts ≠ [])
    (lineFeedFree : ∀ text ∈ texts, '\n' ∉ text) (returnFree : ∀ text ∈ texts, '\r' ∉ text) :
    lines (['\n'].intercalate texts) = texts := by
  refine (lines_intercalate_eq_self_iff nonempty lineFeedFree).mpr fun text member ended => ?_
  exact returnFree text (List.dropLast_subset _ member) (List.mem_of_getLast? ended)

/-- Cells without tabs are told apart again. -/
theorem cells_line {row : Row} (nonempty : row ≠ []) (tabFree : ∀ cell ∈ row, '\t' ∉ cell.toList) :
    cells (ResultSet.line row).toList = row := by
  have pieces :
      (['\t'].intercalate (row.map String.toList)).splitOn '\t' = row.map String.toList := by
    apply List.splitOn_intercalate
    · simpa using tabFree
    · simpa using nonempty
  have spelled : (ResultSet.line row).toList = ['\t'].intercalate (row.map String.toList) := by
    simp [ResultSet.line, String.toList_intercalate]
  simp [cells, spelled, pieces]

/-- A line holds no other characters than tabs and those of its cells. -/
theorem not_mem_line {row : Row} {c : Char} (noTab : c ≠ '\t')
    (free : ∀ cell ∈ row, c ∉ cell.toList) : c ∉ (ResultSet.line row).toList := by
  intro member
  rw [ResultSet.line, String.toList_intercalate] at member
  rcases mem_intercalate member with between | ⟨text, inside, there⟩
  · exact noTab between
  · obtain ⟨cell, cellMember, rfl⟩ := List.mem_map.mp inside
    exact free cell cellMember there

/-- A line is empty without cells, and with one cell that is empty. -/
theorem line_eq_empty_iff {row : Row} : ResultSet.line row = "" ↔ row = [] ∨ row = [""] := by
  rw [← String.toList_inj]
  match row with
  | [] => simp [ResultSet.line]
  | [cell] => simp [ResultSet.line]
  | cell :: next :: rest => simp [ResultSet.line, String.toList_intercalate]

/-- The texts of the lines as they are written. -/
def textLines (table : Table) : List (List Char) :=
  (table.columns :: table.rows).map fun line => (ResultSet.line line).toList

theorem toList_render (table : Table) :
    table.render.toList = ['\n'].intercalate table.textLines := by
  simp [render, textLines, String.toList_intercalate, Function.comp_def]

/-- A table in whose text there is a header, and no separator inside of a cell. -/
structure Separable (table : Table) : Prop extends table.Regular where
  header : table.columns ≠ []
  cells : ∀ line ∈ table.columns :: table.rows, ∀ cell ∈ line, IsCell cell
  titled : ResultSet.line table.columns ≠ ""

namespace Separable

variable {table : Table}

theorem line_ne_nil (separable : table.Separable) :
    ∀ line ∈ table.columns :: table.rows, line ≠ [] := by
  intro line member empty
  rcases List.mem_cons.mp member with rfl | inside
  · exact separable.header empty
  · have wide := separable.wide line inside
    rw [empty] at wide
    exact separable.header (List.length_eq_zero_iff.mp wide.symm)

theorem lines_render (separable : table.Separable) :
    lines table.render.toList = table.textLines := by
  rw [toList_render]
  apply lines_intercalate
  · simp [textLines]
  · intro text member
    obtain ⟨line, inside, rfl⟩ := List.mem_map.mp member
    exact not_mem_line (by decide) fun cell there =>
      (separable.cells line inside cell there).lineFeedFree
  · intro text member
    obtain ⟨line, inside, rfl⟩ := List.mem_map.mp member
    exact not_mem_line (by decide) fun cell there =>
      (separable.cells line inside cell there).returnFree

theorem cells_line_of_mem (separable : table.Separable) {line : Row}
    (member : line ∈ table.columns :: table.rows) :
    Table.cells (ResultSet.line line).toList = line :=
  cells_line (separable.line_ne_nil line member)
    fun cell inside => (separable.cells line member cell inside).tabFree

/-- A table is read back from its text without its last primary key, and without the rows that
make an empty line. -/
theorem parse_render (separable : table.Separable) (stem : String) :
    parse stem table.render = .ok { table with
      name := lowercase stem
      rows := table.rows.filter fun row => ResultSet.line row ≠ ""
      lastKey := 0 } := by
  have header : (ResultSet.line table.columns).toList ≠ [] := by simpa using separable.titled
  have rows : ((table.rows.map fun row => (ResultSet.line row).toList).filter (· ≠ [])).map
      Table.cells = table.rows.filter fun row => ResultSet.line row ≠ "" := by
    rw [List.filter_map, List.map_map]
    have shown : (fun row => decide (ResultSet.line row ≠ "")) =
        (fun text => decide (text ≠ [])) ∘ fun row => (ResultSet.line row).toList := by
      funext row
      simp
    rw [shown]
    refine (List.map_congr_left fun row inside => ?_).trans (List.map_id' _)
    exact separable.cells_line_of_mem (List.mem_cons_of_mem _ (List.mem_filter.mp inside).1)
  have columns := separable.cells_line_of_mem List.mem_cons_self
  have read := parse_of_lines stem separable.lines_render header
  rw [columns, rows] at read
  exact read separable.unreserved separable.distinct fun row member =>
    separable.wide row (List.mem_filter.mp member).1

end Separable

/-- A table whose text is read back as the same table. -/
structure Printable (table : Table) : Prop where
  header : table.columns ≠ []
  unreserved : ∀ column ∈ table.columns, isReserved column = false
  distinct : Distinct table.columns
  wide : ∀ row ∈ table.rows, row.length = table.columns.length
  cells : ∀ line ∈ table.columns :: table.rows, ∀ cell ∈ line, IsCell cell
  shown : ∀ line ∈ table.columns :: table.rows, ResultSet.line line ≠ ""

namespace Printable

variable {table : Table}

theorem separable (printable : table.Printable) : table.Separable :=
  ⟨⟨printable.unreserved, printable.distinct, printable.wide⟩, printable.header,
    printable.cells, printable.shown table.columns List.mem_cons_self⟩

theorem filter_rows (printable : table.Printable) :
    (table.rows.filter fun row => ResultSet.line row ≠ "") = table.rows :=
  List.filter_eq_self.mpr fun row member =>
    decide_eq_true (printable.shown row (List.mem_cons_of_mem _ member))

end Printable

/-- A printable table is read back from its text, but for its last primary key. -/
theorem parse_render {table : Table} (printable : table.Printable) (stem : String) :
    parse stem table.render = .ok { table with name := lowercase stem, lastKey := 0 } := by
  rw [printable.separable.parse_render stem, printable.filter_rows]

theorem parseKey_renderKey (table : Table) :
    parseKey table.renderKey =
      if table.lastKey < UInt64.size then .ok table.lastKey else .error .badCounter := by
  have digits := Numeral.areDigits_toString table.lastKey
  have value := Numeral.ofDigits_toString table.lastKey
  have spelled : table.renderKey.toList = 'p' :: 'k' :: '=' :: (toString table.lastKey).toList := by
    simp [renderKey]
  have solid : ∀ c ∈ table.renderKey.toList, ¬ isBlank c := by
    rw [spelled]
    intro c member
    simp only [List.mem_cons] at member
    rcases member with rfl | rfl | rfl | digit
    · decide
    · decide
    · decide
    · exact not_isBlank_of_isDigit (Numeral.isDigit_of_areDigits digits digit)
  have whole : trim table.renderKey.toList = table.renderKey.toList :=
    trim_eq_self (fun c first => solid c (List.mem_of_mem_head? first))
      fun c last => solid c (List.mem_of_mem_getLast? last)
  unfold parseKey
  rw [whole, spelled]
  generalize (toString table.lastKey).toList = number at digits value
  split
  · rename_i read same
    obtain rfl : number = read := by simpa using same
    dsimp only
    split
    · -- A number does not start with a plus sign.
      exact absurd (Numeral.isDigit_of_areDigits digits List.mem_cons_self) (by decide)
    · simp [digits, value]
  · rename_i other
    exact absurd rfl (other number)

end Table

end TextTables
