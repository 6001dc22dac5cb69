import TextTables.Proofs.Table.Clean
import TextTables.Proofs.Table.KeyColumn
import TextTables.Proofs.TableFile.RoundTrip
import TextTables.Proofs.Text.Names

/-!
# Tables that commands make

A table that commands made starts with the primary key, has one cell for each column in every
row, and carries keys that rise from row to row and never above the last one given out. Every
change that a statement can ask for keeps it so.
-/

namespace TextTables

open Text

namespace Table

/-- The rows carry primary keys that rise from row to row, up to the last one given out. -/
def Numbered (table : Table) : Prop :=
  ∃ keys : List Nat, table.rows.map List.head? = keys.map (fun key => some (toString key)) ∧
    keys.Pairwise (· < ·) ∧ ∀ key ∈ keys, key ≤ table.lastKey

/-- A table as commands make it. -/
structure Sound (table : Table) : Prop extends Regular table where
  named : IsName table.name
  plain : ∀ column ∈ table.columns, isPlain column.toList
  keyed : table.columns.head? = some primaryKey
  cells : ∀ row ∈ table.rows, ∀ cell ∈ row, IsCell cell
  numbered : Numbered table

/-- Leaving rows out, or changing them behind their first cells, keeps the keys in order. -/
theorem Numbered.of_heads {table changed : Table} (numbered : table.Numbered)
    (heads : (changed.rows.map List.head?).Sublist (table.rows.map List.head?))
    (same : changed.lastKey = table.lastKey) : changed.Numbered := by
  obtain ⟨keys, spelled, rising, bounded⟩ := numbered
  rw [spelled] at heads
  obtain ⟨kept, inside, shape⟩ := List.sublist_map_iff.mp heads
  refine ⟨kept, shape, rising.sublist inside, ?_⟩
  intro key member
  rw [same]
  exact bounded key (inside.subset member)

theorem Numbered.row {table : Table} (numbered : table.Numbered) {row : Row}
    (member : row ∈ table.rows) : ∃ key ≤ table.lastKey, row.head? = some (toString key) := by
  obtain ⟨keys, spelled, -, bounded⟩ := numbered
  have head : row.head? ∈ table.rows.map List.head? := List.mem_map_of_mem member
  rw [spelled] at head
  obtain ⟨key, inside, same⟩ := List.mem_map.mp head
  exact ⟨key, bounded key inside, same.symm⟩

/-- A table that starts with the primary key has a header line. -/
theorem Clean.separable {table : Table} (clean : table.Clean) (regular : table.Regular)
    (keyed : table.Keyed) : table.Separable := by
  refine ⟨regular, keyed.columns_ne_nil, clean.line, fun empty => ?_⟩
  obtain ⟨column, first, spelled⟩ := keyed
  rcases line_eq_empty_iff.mp empty with none | blank
  · rw [none] at first
    cases first
  · rw [blank] at first
    rw [← Option.some.inj first] at spelled
    exact absurd spelled (by decide)

namespace Sound

variable {table changed : Table}

theorem hasKeyColumn (sound : table.Sound) : table.Keyed :=
  ⟨primaryKey, sound.keyed, sameIgnoringCase_self _⟩

theorem clean (sound : table.Sound) : table.Clean where
  header column member := isCell_of_isAlphanum (isPlain_iff.mp (sound.plain column member)).2
  cells := sound.cells

theorem addColumn (sound : table.Sound) {name : String} (plain : isPlain name.toList)
    (added : table.addColumn name = .ok changed) : changed.Sound := by
  have regular := sound.toRegular.addColumn added
  have same := sameKeyColumn_addColumn sound.toRegular sound.hasKeyColumn added
  have cells := sound.clean.addColumn (isCell_of_isAlphanum (isPlain_iff.mp plain).2) added
  obtain ⟨-, -, rfl⟩ := addColumn_eq_ok added
  refine
    { regular with
      named := sound.named, plain := ?_, keyed := same.header.trans sound.keyed,
      cells := cells.cells, numbered := sound.numbered.of_heads (by rw [same.cells]) rfl }
  intro column member
  rcases List.mem_append.mp member with before | last
  · exact sound.plain column before
  · exact List.mem_singleton.mp last ▸ plain

theorem dropColumn (sound : table.Sound) {name : String}
    (dropped : table.dropColumn name = .ok changed) : changed.Sound := by
  have regular := sound.toRegular.dropColumn dropped
  have same := sameKeyColumn_dropColumn sound.hasKeyColumn dropped
  have cells := sound.clean.dropColumn dropped
  obtain ⟨-, index, -, rfl⟩ := dropColumn_eq_ok dropped
  exact
    { regular with
      named := sound.named, keyed := same.header.trans sound.keyed, cells := cells.cells,
      plain := fun column member => sound.plain column (List.mem_of_mem_eraseIdx member),
      numbered := sound.numbered.of_heads (by rw [same.cells]) rfl }

theorem insert (sound : table.Sound) {cells : Row} (proper : ∀ cell ∈ cells, IsCell cell)
    (inserted : table.insert cells = .ok changed) : changed.Sound := by
  have regular := sound.toRegular.insert inserted
  have clean := sound.clean.insert proper inserted
  obtain ⟨-, rfl⟩ := insert_eq_ok inserted
  refine { sound with toRegular := regular, cells := clean.cells, numbered := ?_ }
  obtain ⟨keys, spelled, rising, bounded⟩ := sound.numbered
  refine ⟨keys ++ [table.lastKey + 1], by simp [spelled], ?_, ?_⟩
  · refine List.pairwise_append.mpr ⟨rising, by simp, ?_⟩
    intro key member last same
    have below := bounded key member
    simp only [List.mem_singleton] at same
    omega
  · intro key member
    rcases List.mem_append.mp member with before | last
    · exact Nat.le_succ_of_le (bounded key before)
    · exact Nat.le_of_eq (List.mem_singleton.mp last)

/-- Other rows can stand in the place of all, with keys from among the old ones in order. -/
theorem replaceRows (sound : table.Sound) {rows : List Row}
    (cells : ∀ row ∈ rows, ∀ cell ∈ row, IsCell cell)
    (heads : (rows.map List.head?).Sublist (table.rows.map List.head?))
    (replaced : table.replaceRows rows = .ok changed) : changed.Sound := by
  obtain ⟨wide, rfl⟩ := replaceRows_eq_ok replaced
  exact { sound with wide := wide, cells := cells, numbered := sound.numbered.of_heads heads rfl }

theorem update (sound : table.Sound) {assignments : List (String × Literal)}
    {condition : Condition} (proper : ∀ assignment ∈ assignments, IsCell assignment.2.text)
    (updated : table.update assignments condition = .ok changed) : changed.Sound := by
  have same := sameKeyColumn_update sound.hasKeyColumn updated
  have clean := sound.clean.update proper updated
  obtain ⟨targets, mask, -, -, replaced⟩ := update_eq_ok updated
  obtain ⟨-, rfl⟩ := replaceRows_eq_ok replaced
  exact sound.replaceRows clean.cells (by rw [← same.cells]) replaced

theorem delete (sound : table.Sound) {condition : Condition}
    (deleted : table.delete condition = .ok changed) : changed.Sound := by
  have clean := sound.clean.delete deleted
  obtain ⟨mask, -, replaced⟩ := delete_eq_ok deleted
  obtain ⟨-, rfl⟩ := replaceRows_eq_ok replaced
  exact sound.replaceRows clean.cells ((unmarked_sublist mask table.rows).map List.head?) replaced

theorem withColumns {name : String} {columns : List String} (named : IsName name)
    (plain : ∀ column ∈ columns, isPlain column.toList)
    (made : Table.withColumns name columns = .ok table) :
    table.Sound ∧ table.name = name ∧ table.lastKey = 0 := by
  have regular := Regular.withColumns made
  obtain ⟨-, -, rfl⟩ := withColumns_eq_ok made
  rw [named.lower] at regular ⊢
  refine ⟨?_, rfl, rfl⟩
  refine
    { regular with
      named := named, plain := ?_, keyed := rfl, cells := by simp,
      numbered := ⟨[], by simp, List.Pairwise.nil, by simp⟩ }
  intro column member
  rcases List.mem_cons.mp member with rfl | given
  · decide
  · exact plain column given

/-- No line of the table's text is empty, and no cell is cut. -/
theorem printable (sound : table.Sound) : table.Printable := by
  have separable := sound.clean.separable sound.toRegular sound.hasKeyColumn
  refine ⟨separable.header, sound.unreserved, sound.distinct, sound.wide, separable.cells,
    List.forall_mem_cons.mpr ⟨separable.titled, fun row member empty => ?_⟩⟩
  obtain ⟨key, -, head⟩ := sound.numbered.row member
  rcases line_eq_empty_iff.mp empty with rfl | rfl
  · cases head
  · have digits := Numeral.areDigits_toString key
    rw [← Option.some.inj head] at digits
    exact absurd digits (by decide)

end Sound

end Table

end TextTables
