import TextTables.Proofs.Number.Decimal
import TextTables.Proofs.TableFile.Reading
import TextTables.Proofs.Text.Cells

/-!
# Tables whose cells leave the lines as they are

What is read from a text without carriage returns has neither separators nor carriage returns in
its cells, and changes that put no others into them keep it so.
-/

namespace TextTables.Table

open Text

/-- All names of columns and all cells leave the lines of a table file as they are. -/
structure Clean (table : Table) : Prop where
  header : ∀ column ∈ table.columns, IsCell column
  cells : ∀ row ∈ table.rows, ∀ cell ∈ row, IsCell cell

theorem isCell_toString (number : Nat) : IsCell (toString number) := by
  refine isCell_of_isAlphanum fun c member => ?_
  have digit := Numeral.isDigit_of_areDigits (Numeral.areDigits_toString number) member
  simp [Char.isAlphanum, digit]

namespace Clean

variable {table changed : Table} {name : String}

theorem line (clean : table.Clean) :
    ∀ line ∈ table.columns :: table.rows, ∀ cell ∈ line, IsCell cell :=
  List.forall_mem_cons.mpr ⟨clean.header, clean.cells⟩

theorem addColumn (clean : table.Clean) (proper : IsCell name)
    (added : table.addColumn name = .ok changed) : changed.Clean := by
  obtain ⟨-, -, rfl⟩ := addColumn_eq_ok added
  constructor
  · intro column member
    rcases List.mem_append.mp member with before | last
    · exact clean.header column before
    · exact List.mem_singleton.mp last ▸ proper
  · intro row member cell inside
    obtain ⟨old, present, rfl⟩ := List.mem_map.mp member
    rcases List.mem_append.mp inside with before | last
    · exact clean.cells old present cell before
    · rw [List.mem_singleton.mp last]
      exact ⟨by decide, by decide, by decide⟩

theorem dropColumn (clean : table.Clean) (dropped : table.dropColumn name = .ok changed) :
    changed.Clean := by
  obtain ⟨-, index, -, rfl⟩ := dropColumn_eq_ok dropped
  constructor
  · exact fun column member => clean.header column (List.mem_of_mem_eraseIdx member)
  · intro row member cell inside
    obtain ⟨old, present, rfl⟩ := List.mem_map.mp member
    exact clean.cells old present cell (List.mem_of_mem_eraseIdx inside)

theorem insert (clean : table.Clean) {cells : Row} (proper : ∀ cell ∈ cells, IsCell cell)
    (inserted : table.insert cells = .ok changed) : changed.Clean := by
  obtain ⟨-, rfl⟩ := insert_eq_ok inserted
  refine ⟨clean.header, fun row member cell inside => ?_⟩
  rcases List.mem_append.mp member with before | last
  · exact clean.cells row before cell inside
  · rw [List.mem_singleton.mp last] at inside
    rcases List.mem_cons.mp inside with rfl | given
    · exact isCell_toString _
    · exact proper cell given

theorem update (clean : table.Clean) {assignments : List (String × Literal)}
    {condition : Condition} (proper : ∀ assignment ∈ assignments, IsCell assignment.2.text)
    (updated : table.update assignments condition = .ok changed) : changed.Clean := by
  obtain ⟨targets, mask, located, -, replaced⟩ := update_eq_ok updated
  obtain ⟨-, rfl⟩ := replaceRows_eq_ok replaced
  have texts : ∀ target ∈ targets, IsCell target.2 := by
    intro target member
    obtain ⟨assignment, inside, found⟩ := Work.exists_of_mem_mapM located member
    obtain ⟨-, -, same⟩ := target_eq_ok found
    exact same ▸ proper assignment inside
  refine ⟨clean.header, fun row member cell inside => ?_⟩
  obtain ⟨⟨old, mark⟩, zipped, rfl⟩ := List.mem_map.mp member
  have present : old ∈ table.rows := (List.of_mem_zip zipped).1
  cases mark with
  | false => exact clean.cells old present cell inside
  | true =>
      rcases mem_assignCells inside with kept | ⟨target, assigned, rfl⟩
      · exact clean.cells old present cell kept
      · exact texts target assigned

theorem delete (clean : table.Clean) {condition : Condition}
    (deleted : table.delete condition = .ok changed) : changed.Clean := by
  obtain ⟨mask, -, replaced⟩ := delete_eq_ok deleted
  obtain ⟨-, rfl⟩ := replaceRows_eq_ok replaced
  exact ⟨clean.header, fun row member =>
    clean.cells row ((unmarked_sublist mask table.rows).subset member)⟩

end Clean

/-- A line of a text holds no line feed, and no other characters than the text. -/
theorem char_of_mem_lines {text line : List Char} (member : line ∈ lines text) :
    '\n' ∉ line ∧ line ⊆ text := by
  have pieces : ∀ piece ∈ text.splitOn '\n', '\n' ∉ piece ∧ piece ⊆ text :=
    fun piece inside => piece_of_mem_splitOn inside
  rcases List.mem_append.mp member with before | last
  · obtain ⟨piece, inside, rfl⟩ := List.mem_map.mp before
    obtain ⟨free, below⟩ := pieces piece (List.dropLast_subset _ inside)
    have shorter : dropReturn piece ⊆ piece := by
      unfold dropReturn
      split
      · exact List.dropLast_subset _
      · exact List.Subset.refl _
    exact ⟨fun feed => free (shorter feed), List.Subset.trans shorter below⟩
  · exact pieces line (List.mem_of_getLast? (Option.mem_toList.mp last))

theorem isCell_of_mem_cells {text line : List Char} (returnFree : '\r' ∉ text)
    (member : line ∈ lines text) : ∀ cell ∈ cells line, IsCell cell := by
  obtain ⟨lineFeedFree, below⟩ := char_of_mem_lines member
  intro cell inside
  obtain ⟨piece, split, rfl⟩ := List.mem_map.mp inside
  obtain ⟨tabFree, part⟩ := piece_of_mem_splitOn split
  constructor <;> rw [String.toList_ofList]
  · exact tabFree
  · exact fun feed => lineFeedFree (part feed)
  · exact fun turn => returnFree (below (part turn))

/-- What is read from a text without carriage returns can be written again. -/
theorem clean_of_parse {name text : String} {table : Table} (read : parse name text = .ok table)
    (returnFree : '\r' ∉ text.toList) : table.Clean := by
  obtain ⟨-, header, rows, shape, rfl⟩ := exists_lines_of_parse read
  have fine : ∀ line ∈ header :: rows, ∀ cell ∈ cells line, IsCell cell :=
    fun line member => isCell_of_mem_cells returnFree (shape ▸ member)
  refine ⟨fine header List.mem_cons_self, fun row member => ?_⟩
  obtain ⟨line, kept, rfl⟩ := List.mem_map.mp member
  exact fine line (List.mem_cons_of_mem _ (List.mem_filter.mp kept).1)

end TextTables.Table
