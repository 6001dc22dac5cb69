import TextTables.Proofs.TableFile.RoundTrip

/-!
# Table files that are written again

A table that was read from whatever text is written in one form. Reading takes one carriage return
off the end of every line but the last, so that the new text is read as the same table exactly if
no other line still ends in a carriage return. Such a line is one that ended in several of them.
-/

namespace TextTables.Table

open Text

/-- No line but the last one ends in a carriage return. -/
def EndsPlain (table : Table) : Prop :=
  ∀ line ∈ table.textLines.dropLast, line.getLast? ≠ some '\r'

instance (table : Table) : Decidable table.EndsPlain :=
  inferInstanceAs (Decidable (∀ line ∈ _, _))

variable {name text : String} {table : Table} {header line : List Char} {rows : List (List Char)}

/-- The cells of a line are written as the line. -/
theorem toList_line_cells (line : List Char) : (ResultSet.line (cells line)).toList = line := by
  rw [ResultSet.line, String.toList_intercalate, cells, List.map_map]
  have spelled : String.toList ∘ String.ofList = id := by
    funext characters
    simp
  rw [spelled, List.map_id]
  exact List.intercalate_splitOn '\t'

theorem lineFeed_not_mem_lines (member : line ∈ lines text.toList) : '\n' ∉ line := by
  have free : ∀ piece ∈ text.toList.splitOn '\n', '\n' ∉ piece := fun piece inside =>
    (piece_of_mem_splitOn inside).1
  obtain inside | last := List.mem_append.mp member
  · obtain ⟨piece, among, rfl⟩ := List.mem_map.mp inside
    intro there
    refine free piece (List.dropLast_subset _ among) ?_
    unfold dropReturn at there
    split at there
    · exact List.dropLast_subset _ there
    · exact there
  · exact free line (List.mem_of_getLast? (Option.mem_toList.mp last))

theorem header_ne_nil_of_parse (read : parse name text = .ok table)
    (shape : lines text.toList = header :: rows) : header ≠ [] := by
  rintro rfl
  simp [parse, shape] at read

/-- A table is written in the lines that it was read from, but for the empty ones. -/
theorem textLines_of_parse (read : parse name text = .ok table) :
    table.textLines = (lines text.toList).filter (· ≠ []) ∧
      ∀ line ∈ table.textLines, '\n' ∉ line := by
  obtain ⟨-, header, rows, shape, same⟩ := exists_lines_of_parse read
  have written : table.textLines = (lines text.toList).filter (· ≠ []) := by
    have spelled : (fun row => (ResultSet.line row).toList) ∘ cells = id :=
      funext toList_line_cells
    have titled := header_ne_nil_of_parse read shape
    rw [same, textLines, shape, List.filter_cons_of_pos (by simpa using titled), List.map_cons,
      toList_line_cells, List.map_map, spelled, List.map_id]
  refine ⟨written, fun line member => ?_⟩
  rw [written] at member
  exact lineFeed_not_mem_lines (List.mem_filter.mp member).1

theorem lines_render_eq_iff (read : parse name text = .ok table) :
    lines table.render.toList = table.textLines ↔ table.EndsPlain := by
  rw [toList_render]
  exact lines_intercalate_eq_self_iff (by simp [textLines]) (textLines_of_parse read).2

/-- If no line loses anything, the table is read again as it was. -/
theorem parse_render_of_endsPlain (read : parse name text = .ok table) (plain : table.EndsPlain)
    (stem : String) :
    parse stem table.render = .ok { table with name := lowercase stem, lastKey := 0 } := by
  obtain ⟨regular, header, rows, shape, same⟩ := exists_lines_of_parse read
  have titled := header_ne_nil_of_parse read shape
  have written := (textLines_of_parse read).1
  rw [shape, List.filter_cons_of_pos (by simpa using titled),
    ← (lines_render_eq_iff read).mpr plain] at written
  have nonempty : (rows.filter (· ≠ [])).filter (· ≠ []) = rows.filter (· ≠ []) := by simp
  rw [same] at regular
  have columns : table.columns = cells header := by rw [same]
  have cellRows : table.rows = (rows.filter (· ≠ [])).map cells := by rw [same]
  rw [columns, cellRows, ← nonempty]
  refine parse_of_lines stem written titled regular.unreserved regular.distinct ?_
  rw [nonempty]
  exact regular.wide

/-- What was read from a text and is written again comes back with the same columns and rows
exactly if no line but the last one ends in a carriage return. -/
theorem parse_render_iff_endsPlain (read : parse name text = .ok table) (stem : String) :
    (∃ again, parse stem table.render = .ok again ∧ again.columns = table.columns ∧
      again.rows = table.rows) ↔ table.EndsPlain := by
  constructor
  · rintro ⟨again, reread, columns, rows⟩
    have same : again.textLines = table.textLines := by rw [textLines, columns, rows, textLines]
    have kept := (textLines_of_parse reread).1
    rw [same] at kept
    -- As many lines are read as were written, so that none of them has become empty.
    have size : (lines table.render.toList).length = table.textLines.length := by
      rw [toList_render, lines_intercalate_eq (by simp [textLines]) (textLines_of_parse read).2,
        List.length_append, List.length_map, ← List.length_append, dropLast_append_last]
    rw [kept] at size
    rw [← lines_render_eq_iff read, kept]
    exact (List.filter_eq_self.mpr (List.length_filter_eq_length_iff.mp size.symm)).symm
  · intro plain
    exact ⟨_, parse_render_of_endsPlain read plain stem, rfl, rfl⟩

end TextTables.Table
