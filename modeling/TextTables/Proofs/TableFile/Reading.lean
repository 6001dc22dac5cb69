import TextTables.Proofs.Table.Regular
import TextTables.TableFile

/-!
# What a table file is read as

A file that is read as a table has a first line that is not empty, which is the header, and a row
for each other line that is not empty. Only rows of the width of the header are accepted.
-/

namespace TextTables.Table

open Text

variable {name text : String} {table : Table} {header : List Char} {rows : List (List Char)}

/-- The columns that the first line of a text names. -/
def headerOf (text : String) : List String :=
  cells ((lines text.toList).headD [])

/-- The first line gives the columns, and the other ones give the rows but for empty lines. -/
theorem exists_lines_of_parse (read : parse name text = .ok table) :
    table.Regular ∧ ∃ header rows, lines text.toList = header :: rows ∧
      table = ⟨lowercase name, cells header, (rows.filter (· ≠ [])).map cells, 0⟩ := by
  unfold parse at read
  split at read
  · cases read
  · rename_i header rows shape
    split at read
    · cases read
    · have done := Work.mapError_eq_ok_iff.mp read
      cases added : (bare name 0).addColumns (cells header) with
      | error error => simp [added, bind, Except.bind] at done
      | ok titled =>
          obtain ⟨unreserved, distinct, rfl⟩ :=
            addColumns_eq_ok (rfl : (bare name 0).rows = []) List.Pairwise.nil added
          simp only [added, bind, Except.bind] at done
          obtain ⟨wide, rfl⟩ := replaceRows_eq_ok done
          exact ⟨⟨unreserved, distinct, wide⟩, header, rows, shape, rfl⟩

/-- A first line that names columns is accepted with rows of its width. -/
theorem parse_of_lines (name : String) (shape : lines text.toList = header :: rows)
    (titled : header ≠ [])
    (unreserved : ∀ column ∈ cells header, isReserved column = false)
    (distinct : Distinct (cells header))
    (wide : ∀ row ∈ (rows.filter (· ≠ [])).map cells, row.length = (cells header).length) :
    parse name text = .ok ⟨lowercase name, cells header, (rows.filter (· ≠ [])).map cells, 0⟩ := by
  have columns : (bare name 0).addColumns (cells header) =
      .ok { bare name 0 with columns := cells header } :=
    addColumns_ok rfl unreserved (by simpa [bare] using distinct)
  have filled : ({ bare name 0 with columns := cells header } : Table).replaceRows
      ((rows.filter (· ≠ [])).map cells) =
        .ok ⟨lowercase name, cells header, (rows.filter (· ≠ [])).map cells, 0⟩ :=
    replaceRows_ok wide
  unfold parse
  rw [shape]
  simp only [titled, if_false, columns]
  exact congrArg (Except.mapError Corruption.misshapen) filled

theorem parse_eq_ok (read : parse name text = .ok table) :
    table.Regular ∧ table.name = lowercase name ∧ table.columns = headerOf text := by
  obtain ⟨regular, header, rows, shape, rfl⟩ := exists_lines_of_parse read
  refine ⟨regular, rfl, ?_⟩
  rw [headerOf, shape]
  rfl

end TextTables.Table
