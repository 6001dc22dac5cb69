import TextTables.Proofs.Condition.Equality
import TextTables.Proofs.Session.Outcomes
import TextTables.Proofs.Table.KeyColumn
import TextTables.Proofs.Table.Projection

/-!
# Finding what was inserted

A query that asks for the value of a column finds the row that was inserted with that value, besides
those that it found before. Only a string that looks like something else without its quotes is not
found, neither as equal nor as different.
-/

namespace TextTables

open Text

/-- The column of the primary key comes first. -/
theorem Table.Keyed.position_eq_zero {table : Table} {name : String} (keyed : table.Keyed)
    (key : sameIgnoringCase name primaryKey) : table.position name = 0 ∧ ¬ table.lacks name := by
  obtain ⟨column, first, spelled⟩ := keyed
  have found : table.columnIndex? name = some 0 := by
    rw [sameIgnoringCase_comm] at key
    obtain ⟨rest, columns⟩ := List.head?_eq_some_iff.mp first
    rw [columnIndex?, columns, List.findIdx?_cons, sameIgnoringCase_trans spelled key]
    rfl
  exact ⟨by rw [position, found]; rfl, not_lacks_of_columnIndex? found⟩

namespace Session

open Table

variable {session next : Session} {insertion name : String} {values : List Literal}
  {database : Database} {table : Table} {answer : Answer} {disk after : Disk}

/-- However the session came to the table, the row that an insertion appends is found by asking for
any of its values as equal, and is not found by asking for it as different. The other rows that such
a query finds are those that it found before. A disguised string is not found as equal either. -/
theorem finds_inserted {root : Path} {visits : List (String × Disk)}
    (visited : (executeEach ⟨⟨root⟩, none⟩ visits).2 = session)
    (inserts : Statement.parse insertion = .ok (.insert name values))
    (selected : session.current = some database) (found : database.table name = .ok table)
    (keyed : table.Keyed)
    (inserted : session.execute insertion disk = (.answered answer, next, after)) :
    (∀ literal : Literal, literal.Expressible →
      (Comparator.equal.holds literal.text literal ↔ ¬ literal.IsDisguised) ∧
        ¬ Comparator.notEqual.holds literal.text literal) ∧
    (∃ later, next.current = some later ∧ later.table name = .ok { table with
      rows := table.rows ++ [toString (table.lastKey + 1) :: values.map Literal.text]
      lastKey := table.lastKey + 1 }) ∧
    ∀ index column literal, table.columns[index + 1]? = some column →
      values[index]? = some literal →
      ∀ query identifier asked comparator, Statement.parse query =
          .ok (.select (.only [identifier]) name
            (some (.comparison asked comparator literal))) →
        sameIgnoringCase identifier primaryKey → sameIgnoringCase column asked →
        comparator = .equal ∨ comparator = .notEqual →
        ∃ header ids, ∀ start,
          session.execute query start = (.answered (.table ⟨[header], ids⟩), session, start) ∧
          next.execute query start = (.answered (.table ⟨[header], ids ++
            if comparator = .equal ∧ ¬ literal.IsDisguised then [[toString (table.lastKey + 1)]]
            else []⟩), next, start) := by
  have regular := regular_of_found visited selected found
  obtain ⟨free, _, _, changed, selectedAgain, foundAgain, made, -, rfl, rfl⟩ :=
    (execute_change_iff session inserts rfl).mp inserted
  cases selected.symm.trans selectedAgain
  cases found.symm.trans foundAgain
  have named := Statement.isName_of_change? (Statement.wellSpelled_of_parse inserts) rfl
  obtain ⟨-, shape⟩ := insert_eq_ok made
  have there := (selected_of_update changed named found (by rw [shape])).1
  refine ⟨fun literal expressible => ⟨Comparator.equal_holds_text_iff expressible,
    Comparator.not_notEqual_holds_text literal⟩, ⟨_, rfl, there.trans (by rw [shape])⟩, ?_⟩
  intro index column literal under given query identifier asked comparator asks key same kind
  obtain ⟨front, knownKey⟩ := keyed.position_eq_zero key
  obtain ⟨cell, known⟩ := cell?_of_getElem? regular under same
    (toString (table.lastKey + 1) :: values.map Literal.text)
  have expressible : literal.Expressible :=
    (Statement.expressible_of_parse inserts).2.2 literal (List.mem_of_getElem? given)
  obtain ⟨rows, before, behind⟩ := select_of_insert regular made [identifier]
    (.comparison asked comparator literal) (by simpa using knownKey)
    (by simpa [Condition.columns] using known)
  refine ⟨table.heading identifier, rows, fun start => ⟨?_, ?_⟩⟩
  · exact (execute_select_iff session asks).mpr
      ⟨rfl, rfl, free, database, table, _, selected, found, before, rfl⟩
  · refine (execute_select_iff _ asks).mpr
      ⟨rfl, rfl, free, _, changed, _, rfl, there, behind.trans ?_, rfl⟩
    have row : (toString (table.lastKey + 1) :: values.map Literal.text)[index + 1]? =
        some literal.text := by simp [given]
    have held : (Condition.comparison asked comparator literal).truth
        (table.cell? (toString (table.lastKey + 1) :: values.map Literal.text)) ↔
          comparator = .equal ∧ ¬ literal.IsDisguised := by
      rw [Condition.truth, cell, row, Option.any_some]
      rcases kind with rfl | rfl
      · simpa using Comparator.equal_holds_text_iff expressible
      · simpa using Comparator.not_notEqual_holds_text literal
    simp only [held, List.map_cons, List.map_nil, front]
    rfl

theorem finds_inserted_null :
    let disk : Disk := ⟨[], [(["r"], .directory), (["r", "d"], .directory),
      (["r", "d", "t.tab"], .file "id\ta\tb\n1\tx\tnull".toUTF8)]⟩
    let table : Table := ⟨"t", ["id", "a", "b"], [["1", "x", "null"]], 1⟩
    let session : Session := ⟨⟨⟨["r"]⟩⟩, some ⟨"d", [table]⟩⟩
    let next : Session := ⟨⟨⟨["r"]⟩⟩, some ⟨"d", [{ table with
      rows := table.rows ++ [["2", "65", "NULL"]]
      lastKey := 2 }]⟩⟩
    (executeEach ⟨⟨⟨["r"]⟩⟩, none⟩ [("USE d;", disk)]).2 = session ∧
      Statement.parse "INSERT INTO t VALUES ('65', NULL);" =
        .ok (.insert "t" [⟨"'65'", .string⟩, ⟨"NULL", .null⟩]) ∧
      (∃ after, session.execute "INSERT INTO t VALUES ('65', NULL);" disk =
        (.answered .done, next, after)) ∧
      next.execute "SELECT ID FROM t WHERE B == NULL;" disk =
        (.answered (.table ⟨["id"], [["1"], ["2"]]⟩), next, disk) ∧
      next.execute "SELECT ID FROM t WHERE B != NULL;" disk =
        (.answered (.table ⟨["id"], []⟩), next, disk) ∧
      next.execute "SELECT id FROM t WHERE a == '65';" disk =
        (.answered (.table ⟨["id"], []⟩), next, disk) := by
  intro disk table session next
  have visited : (executeEach ⟨⟨⟨["r"]⟩⟩, none⟩ [("USE d;", disk)]).2 = session := by
    decide +kernel
  have found : Database.table ⟨"d", [table]⟩ "t" = .ok table := by decide +kernel
  have inserts : Statement.parse "INSERT INTO t VALUES ('65', NULL);" =
      .ok (.insert "t" [⟨"'65'", .string⟩, ⟨"NULL", .null⟩]) := by decide +kernel
  have done : (session.execute "INSERT INTO t VALUES ('65', NULL);" disk).1 = .answered .done ∧
      (session.execute "INSERT INTO t VALUES ('65', NULL);" disk).2.1 = next := by decide +kernel
  obtain ⟨after, inserted⟩ := exists_after done.1 done.2
  have keyed : table.Keyed := ⟨"id", rfl, by decide +kernel⟩
  obtain ⟨-, -, finds⟩ := finds_inserted visited inserts rfl found keyed inserted
  have first : table.columns[0 + 1]? = some "a" := rfl
  have second : table.columns[1 + 1]? = some "b" := rfl
  refine ⟨visited, inserts, ⟨after, inserted⟩, ?_, ?_, ?_⟩
  · obtain ⟨header, ids, shown⟩ := finds 1 "b" ⟨"NULL", .null⟩ second rfl
      "SELECT ID FROM t WHERE B == NULL;" "ID" "B" .equal (by decide +kernel) (by decide +kernel)
      (by decide +kernel) (.inl rfl)
    obtain ⟨before, behind⟩ := shown disk
    have idsBefore : (session.execute "SELECT ID FROM t WHERE B == NULL;" disk).1 =
        .answered (.table ⟨["id"], [["1"]]⟩) := by decide +kernel
    rw [before] at idsBefore
    cases idsBefore
    exact behind.trans (by decide +kernel)
  · obtain ⟨header, ids, shown⟩ := finds 1 "b" ⟨"NULL", .null⟩ second rfl
      "SELECT ID FROM t WHERE B != NULL;" "ID" "B" .notEqual (by decide +kernel)
      (by decide +kernel) (by decide +kernel) (.inr rfl)
    obtain ⟨before, behind⟩ := shown disk
    have idsBefore : (session.execute "SELECT ID FROM t WHERE B != NULL;" disk).1 =
        .answered (.table ⟨["id"], []⟩) := by decide +kernel
    rw [before] at idsBefore
    cases idsBefore
    exact behind.trans (by decide +kernel)
  · obtain ⟨header, ids, shown⟩ := finds 0 "a" ⟨"'65'", .string⟩ first rfl
      "SELECT id FROM t WHERE a == '65';" "id" "a" .equal (by decide +kernel) (by decide +kernel)
      (by decide +kernel) (.inl rfl)
    obtain ⟨before, behind⟩ := shown disk
    have idsBefore : (session.execute "SELECT id FROM t WHERE a == '65';" disk).1 =
        .answered (.table ⟨["id"], []⟩) := by decide +kernel
    rw [before] at idsBefore
    cases idsBefore
    exact behind.trans (by decide +kernel)

/-- A number between quotes is inserted, and asking for the same value does not find it. Where the
header of a file names no primary key, there is none to ask for. -/
theorem not_finds_inserted :
    (∃ (disk : Disk) (session next : Session) (table : Table) (literal : Literal),
      (executeEach ⟨⟨⟨["r"]⟩⟩, none⟩ [("USE d;", disk)]).2 = session ∧
      session.current = some ⟨"d", [table]⟩ ∧ table.Keyed ∧ literal.Expressible ∧
      Statement.parse "INSERT INTO t VALUES ('65');" = .ok (.insert table.name [literal]) ∧
      (session.execute "INSERT INTO t VALUES ('65');" disk).1 = .answered .done ∧
      (session.execute "INSERT INTO t VALUES ('65');" disk).2.1 = next ∧
      next.current = some ⟨"d", [{ table with rows := [["1", "65"]], lastKey := 1 }]⟩ ∧
      Statement.parse "SELECT id FROM t WHERE a == '65';" =
        .ok (.select (.only ["id"]) table.name (some (.comparison "a" .equal literal))) ∧
      (next.execute "SELECT id FROM t WHERE a == '65';" disk).1 =
        .answered (.table ⟨["id"], []⟩) ∧
      ¬ Comparator.equal.holds literal.text literal) ∧
    ∃ (disk : Disk) (session next : Session),
      (executeEach ⟨⟨⟨["r"]⟩⟩, none⟩ [("USE d;", disk)]).2 = session ∧
      (session.execute "INSERT INTO t VALUES ('y');" disk).1 = .answered .done ∧
      (session.execute "INSERT INTO t VALUES ('y');" disk).2.1 = next ∧
      next.current = some ⟨"d", [⟨"t", ["a", "b"], [["1", "x"], ["2", "y"]], 2⟩]⟩ ∧
      (next.execute "SELECT id FROM t WHERE b == 'y';" disk).1 =
        .failed "Failed getting data from table" (.schema (.unknownColumn "id")) := by
  constructor
  · refine ⟨⟨[], [(["r"], .directory), (["r", "d"], .directory),
        (["r", "d", "t.tab"], .file "id\ta".toUTF8)]⟩,
      ⟨⟨⟨["r"]⟩⟩, some ⟨"d", [⟨"t", ["id", "a"], [], 0⟩]⟩⟩,
      ⟨⟨⟨["r"]⟩⟩, some ⟨"d", [⟨"t", ["id", "a"], [["1", "65"]], 1⟩]⟩⟩,
      ⟨"t", ["id", "a"], [], 0⟩, ⟨"'65'", .string⟩, ?_, rfl, ⟨"id", rfl, ?_⟩, ⟨?_, ?_⟩, ?_, ?_, ?_,
      rfl, ?_, ?_, ?_⟩ <;> decide +kernel
  · refine ⟨⟨[], [(["r"], .directory), (["r", "d"], .directory),
        (["r", "d", "t.tab"], .file "a\tb\n1\tx".toUTF8)]⟩,
      ⟨⟨⟨["r"]⟩⟩, some ⟨"d", [⟨"t", ["a", "b"], [["1", "x"]], 1⟩]⟩⟩,
      ⟨⟨⟨["r"]⟩⟩, some ⟨"d", [⟨"t", ["a", "b"], [["1", "x"], ["2", "y"]], 2⟩]⟩⟩, ?_, ?_, ?_, rfl,
      ?_⟩ <;> decide +kernel

end Session

end TextTables
