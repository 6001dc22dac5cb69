import TextTables.Proofs.Session.Coherence
import TextTables.Proofs.Session.Keeping
import TextTables.Proofs.Session.Outcomes
import TextTables.Proofs.Statement.RoundTrip
import TextTables.Proofs.Table.Partition
import TextTables.Proofs.Table.Projection

/-!
# Queries show what is stored

A query for a whole table answers the text of its file, and one for some columns the cells under
them in the rows on which its condition holds. This goes for every table that a run from a new store
comes to, as long as the root leads to a directory. A root that leads through one of its own
databases is lost with it, and queries are still answered from memory.
-/

namespace TextTables

open Location Text

/-- Lines that end in line feeds have them between each other and one more behind the last. -/
theorem Text.join_lines {lines : List String} (nonempty : lines ≠ []) :
    String.join (lines.map fun line => line ++ "\n") = "\n".intercalate lines ++ "\n" := by
  induction lines with
  | nil => exact absurd rfl nonempty
  | cons line rest inductionHypothesis =>
      cases rest with
      | nil => simp
      | cons next others =>
          rw [List.map_cons, String.join_cons, inductionHypothesis (List.cons_ne_nil next others),
            String.intercalate_cons_cons]
          simp only [String.append_assoc]

/-- The result has the header's spellings of the names for its columns, and under them the cells of
the rows on which the condition holds. -/
structure ResultSet.Shows (result : ResultSet) (table : Table) (names : List String)
    (condition : Condition) : Prop where
  columns : List.Forall₂ (fun column name => column ∈ table.columns ∧ sameIgnoringCase column name)
    result.columns names
  rows : result.rows.map (fun row => row.map some) =
    (table.rows.filter fun row => condition.truth (table.cell? row)).map
      fun row => names.map (table.cell? row)

namespace Table

variable {table : Table} {names : List String} {condition : Condition} {name : String} {row : Row}

/-- Queries and files write the same lines. -/
theorem render_resultSet (table : Table) :
    ResultSet.render ⟨table.columns, table.rows⟩ = table.render ++ "\n" := by
  rw [Table.render, ← join_lines (by simp), List.map_map]
  rfl

theorem select_all (regular : table.Regular) :
    table.select none none = .ok ⟨table.columns, table.rows⟩ :=
  project_columns regular none

/-- A column is shown as the header spells it. -/
theorem heading_mem (known : ¬ table.lacks name) :
    table.heading name ∈ table.columns ∧ sameIgnoringCase (table.heading name) name := by
  obtain ⟨inside, same, -⟩ := List.findIdx?_eq_some_iff_getElem.mp (columnIndex?_eq_position known)
  rw [heading, List.getD_eq_getElem _ _ inside]
  exact ⟨List.getElem_mem inside, same⟩

theorem getD_position (wide : row.length = table.columns.length) (known : ¬ table.lacks name) :
    some (row.getD (table.position name) "") = table.cell? row name := by
  have found := columnIndex?_eq_position known
  have inside : table.position name < row.length := wide ▸ columnIndex?_lt found
  rw [cell?_of_columnIndex? found, List.getD_eq_getElem _ _ inside, List.getElem?_eq_getElem inside]

theorem pick_position (wide : row.length = table.columns.length)
    (known : ∀ name ∈ names, ¬ table.lacks name) :
    (pick (names.map table.position) row).map some = names.map (table.cell? row) := by
  rw [pick, List.map_map, List.map_map]
  exact List.map_congr_left fun name member => getD_position wide (known name member)

/-- A query for known columns, whose condition can be evaluated, is answered. -/
theorem exists_select (regular : table.Regular) (evaluable : condition.IsEvaluable table)
    (known : ∀ name ∈ names, ¬ table.lacks name) :
    ∃ result, table.select (some names) (some condition) = .ok result ∧
      result.Shows table names condition := by
  refine ⟨_, select_eq_ok regular evaluable known, ?_, ?_⟩
  · rw [List.forall₂_map_left_iff, List.forall₂_same]
    exact fun name member => heading_mem (known name member)
  · rw [List.map_map]
    refine List.map_congr_left fun row member => ?_
    exact pick_position (regular.wide row (List.mem_filter.mp member).1) known

end Table

/-- The plain command that asks for a whole table. -/
theorem Statement.parse_select_all {name : String} (named : IsName name) :
    parse ("SELECT * FROM " ++ name ++ ";") = .ok (.select .all name none) := by
  have expressible : (Statement.select .all name none).Expressible := ⟨trivial, named, nofun⟩
  have printed : (Statement.select .all name none).print = "SELECT * FROM " ++ name ++ ";" := by
    have words : "SELECT " ++ ("* " ++ "FROM ") = "SELECT * FROM " := rfl
    rw [← words]
    simp only [String.append_assoc]
    rfl
  rw [← printed]
  exact parse_print expressible

namespace Session

variable {top : Location} {session : Session} {disk : Disk} {database : Database} {table : Table}
  {command name : String}

theorem Holds.regular_executeAll (holds : session.Holds Table.Regular) (disk : Disk)
    (commands : List String) : (session.executeAll disk commands).2.1.Holds Table.Regular :=
  executeAll_preserves (fun session _ => session.Holds Table.Regular)
    (fun _ disk command holds => holds.regular command disk) holds commands

theorem store_executeAll (session : Session) (disk : Disk) (commands : List String) :
    (session.executeAll disk commands).2.1.store = session.store :=
  executeAll_preserves (fun next _ => next.store = session.store)
    (fun next disk command same => (store_execute next command disk).trans same) rfl commands

/-- The tables of the selected database are found by their names. -/
theorem Keeps.found (keeps : session.Keeps top disk) (selected : session.current = some database)
    (member : table ∈ database.tables) : database.table table.name = .ok table := by
  have wellNamed := keeps.wellNamed database selected
  have looked := Database.find?_of_mem wellNamed.sorted member rfl
  rw [Database.table, looked]

/-- The text of a table in memory is stored at the path that its name and that of its database
give, and it is read back as the table. -/
theorem Keeps.readText (keeps : session.Keeps top disk)
    (stands : disk.isDirectory session.store.root) (selected : session.current = some database)
    (member : table ∈ database.tables) :
    DiskM.readText (Store.tablePath (session.store.root.join database.name) table.name) disk =
      .ok table.render disk ∧
    Table.parse table.name table.render = .ok { table with lastKey := 0 } := by
  have leads := keeps.orderly.leads_of_isDirectory stands
  have stores := keeps.stored leads database selected table member
  have wellNamed := keeps.wellNamed database selected
  have tableNamed := wellNamed.tables table member
  have inside := keeps.orderly.leads_of_stands leads wellNamed.named
    (keeps.fits database selected).1 (by rw [stores.tableFile]; exact Option.some_ne_none _)
  constructor
  · exact DiskM.readText_entry inside tableNamed.isFileName_table (stores.fits.table tableNamed)
      stores.tableFile
  · rw [Table.parse_render stores.sound.printable, tableNamed.lower]

/-- A root that leads through no place below its own end leads there in all of a run. -/
theorem isDirectory_of_executeAll {root : Path} {begin start : Disk} {opened : Session}
    (straight : begin.IsStraight root) (bare : begin.IsBare root)
    (fresh : openAt root begin = .ok opened start) (commands : List String) :
    (opened.executeAll start commands).2.2.isDirectory root := by
  obtain ⟨-, -, short⟩ := openAt_mirrors straight bare fresh
  obtain ⟨exchanges, last, after, world, executed, -, -, -, final⟩ :=
    executeAll_of_openAt straight bare fresh commands
  have leads := final.mirrors.leads.toLeads
  rw [executed]
  exact Disk.isDirectory_iff.mpr ⟨_, leads.locate short, leads.directory⟩

end Session

end TextTables
