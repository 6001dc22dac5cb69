import TextTables.Proofs.Join.Binding
import TextTables.Proofs.Join.Rows
import TextTables.Proofs.Session.Footprint
import TextTables.Proofs.Session.Queries

/-!
# Joins in a session

A join is answered exactly if both tables are there and each attribute is a column of its own table,
and then with the pairs of rows that agree in these columns. It does not matter which table comes
first, apart from the order of rows and columns.
-/

namespace TextTables

open Text

/-- The table is named in lower case, and every row has one cell for each column. -/
structure Table.Aligned (table : Table) : Prop where
  lower : lowercase table.name = table.name
  wide : ∀ row ∈ table.rows, row.length = table.columns.length

namespace Session

variable {session next : Session} {command first second : String} {left right : Attribute}
  {disk after : Disk} {answer : Answer} {result : ResultSet}

/-- However a session came to its tables, they are aligned. -/
theorem aligned_of_visited {root : Path} {visits : List (String × Disk)}
    (visited : (executeEach ⟨⟨root⟩, none⟩ visits).2 = session) :
    session.Holds Table.Aligned := by
  have confined := (Confined.fresh ⟨root⟩).executeEach visits
  rw [visited] at confined
  intro database selected table member
  exact ⟨confined.lower database selected table member,
    (regular_of_visited visited database selected table member).wide⟩

theorem joined_of_bindsJoin {database : Database} {firstTable secondTable : Table}
    {firstKey secondKey : Nat} (aligned : session.Holds Table.Aligned)
    (selected : session.current = some database)
    (binds : database.BindsJoin first second left right firstTable secondTable firstKey secondKey) :
    firstTable.Joined secondTable firstKey secondKey
      (firstTable.join secondTable firstKey secondKey) := by
  obtain ⟨firstFound, secondFound, _, _, -, atFirst, atSecond⟩ := binds
  have firstAligned := aligned database selected _ (Database.table_eq_ok firstFound).1
  have secondAligned := aligned database selected _ (Database.table_eq_ok secondFound).1
  exact Table.joined_join firstAligned.wide secondAligned.wide (Table.columnIndex?_lt atFirst)
    (Table.columnIndex?_lt atSecond)

/-- A join is answered exactly if its names are free to use, both tables are there and the
attributes are bound. The answer is the join in the bound columns, and nothing is changed. -/
theorem execute_join_iff_joined (aligned : session.Holds Table.Aligned)
    (reads : Statement.parse command = .ok (.join first second left right)) :
    session.execute command disk = (.answered answer, next, after) ↔
      next = session ∧ after = disk ∧ isReserved first = false ∧ isReserved second = false ∧
        ∃ database firstTable secondTable firstKey secondKey result,
          session.current = some database ∧
          database.BindsJoin first second left right firstTable secondTable firstKey secondKey ∧
          firstTable.name = first ∧ secondTable.name = second ∧
          answer = .table result ∧
          firstTable.Joined secondTable firstKey secondKey result := by
  have spelled : IsName first ∧ IsName second := Statement.wellSpelled_of_parse reads
  rw [execute_join_iff session reads]
  constructor
  · rintro ⟨same, unchanged, firstFree, secondFree, database, result, selected, joined, rfl⟩
    obtain ⟨firstTable, secondTable, firstKey, secondKey, binds, rfl⟩ :=
      Database.join_eq_ok_iff.mp joined
    have called : ∀ {name : String} {table : Table}, IsName name →
        database.table name = .ok table → table.name = name := by
      intro name table named found
      obtain ⟨member, key⟩ := Database.table_eq_ok found
      exact (aligned database selected table member).lower.symm.trans (key.trans named.lower)
    exact ⟨same, unchanged, firstFree, secondFree, database, firstTable, secondTable, firstKey,
      secondKey, _, selected, binds, called spelled.1 binds.firstFound,
      called spelled.2 binds.secondFound, rfl, joined_of_bindsJoin aligned selected binds⟩
  · rintro ⟨same, unchanged, firstFree, secondFree, database, firstTable, secondTable, firstKey,
      secondKey, result, selected, binds, -, -, rfl, joined⟩
    have only := joined.unique (joined_of_bindsJoin aligned selected binds)
    exact ⟨same, unchanged, firstFree, secondFree, database, result, selected,
      Database.join_eq_ok_iff.mpr ⟨_, _, _, _, binds, only⟩, rfl⟩

theorem execute_join_iff_joined_identifier :
    let disk : Disk := ⟨[], [(["r"], .directory), (["r", "d"], .directory),
      (["r", "d", "a.tab"], .file "id\tx\tz\n1\t2\tu\n2\t1\tv\n3\t2\tw".toUTF8),
      (["r", "d", "b.tab"], .file "id\ty\n1\tp\n2\tq".toUTF8)]⟩
    let a : Table := ⟨"a", ["id", "x", "z"], [["1", "2", "u"], ["2", "1", "v"], ["3", "2", "w"]], 3⟩
    let b : Table := ⟨"b", ["id", "y"], [["1", "p"], ["2", "q"]], 2⟩
    let session : Session := ⟨⟨⟨["r"]⟩⟩, some ⟨"d", [a, b]⟩⟩
    let result : ResultSet := ⟨["id", "a.z", "b.y"],
      [["1", "u", "q"], ["2", "v", "p"], ["3", "w", "q"]]⟩
    (executeEach ⟨⟨⟨["r"]⟩⟩, none⟩ [("USE d;", disk)]).2 = session ∧
      session.Holds Table.Aligned ∧
      Statement.parse "JOIN a AND b ON x AND id;" =
        .ok (.join "a" "b" ⟨none, "x"⟩ ⟨none, "id"⟩) ∧
      session.execute "JOIN a AND b ON x AND id;" disk =
        (.answered (.table result), session, disk) ∧
      ∃ firstKey secondKey, a.Joined b firstKey secondKey result := by
  intro disk a b session result
  have visited : (executeEach ⟨⟨⟨["r"]⟩⟩, none⟩ [("USE d;", disk)]).2 = session := by
    decide +kernel
  have aligned : session.Holds Table.Aligned := aligned_of_visited visited
  have reads : Statement.parse "JOIN a AND b ON x AND id;" =
      .ok (.join "a" "b" ⟨none, "x"⟩ ⟨none, "id"⟩) := by decide +kernel
  have executed : session.execute "JOIN a AND b ON x AND id;" disk =
      (.answered (.table result), session, disk) := by decide +kernel
  obtain ⟨-, -, -, -, _, _, _, _, _, _, selected, binds, -, -, same, joined⟩ :=
    (execute_join_iff_joined aligned reads).mp executed
  cases selected
  cases same
  have foundFirst : Database.table ⟨"d", [a, b]⟩ "a" = .ok a := by decide +kernel
  have foundSecond : Database.table ⟨"d", [a, b]⟩ "b" = .ok b := by decide +kernel
  cases binds.firstFound.symm.trans foundFirst
  cases binds.secondFound.symm.trans foundSecond
  exact ⟨visited, aligned, reads, executed, _, _, joined⟩

theorem answered_join_iff (session : Session)
    (reads : Statement.parse command = .ok (.join first second left right)) (disk : Disk)
    (answer : Answer) :
    (session.execute command disk).1 = .answered answer ↔
      isReserved first = false ∧ isReserved second = false ∧
        ∃ database firstTable secondTable firstKey secondKey,
          session.current = some database ∧
          database.BindsJoin first second left right firstTable secondTable firstKey secondKey ∧
          answer = .table (firstTable.join secondTable firstKey secondKey) := by
  constructor
  · intro answered
    obtain ⟨-, -, firstFree, secondFree, database, result, selected, joined, rfl⟩ :=
      (execute_join_iff session reads).mp (Prod.ext answered rfl)
    obtain ⟨firstTable, secondTable, firstKey, secondKey, binds, rfl⟩ :=
      Database.join_eq_ok_iff.mp joined
    exact ⟨firstFree, secondFree, database, firstTable, secondTable, firstKey, secondKey, selected,
      binds, rfl⟩
  · rintro ⟨firstFree, secondFree, database, firstTable, secondTable, firstKey, secondKey,
      selected, binds, rfl⟩
    have joined := Database.join_eq_ok_iff.mpr ⟨_, _, _, _, binds, rfl⟩
    have executed : session.execute command disk = (.answered (.table _), session, disk) :=
      (execute_join_iff session reads).mpr
        ⟨rfl, rfl, firstFree, secondFree, database, _, selected, joined, rfl⟩
    rw [executed]

variable {mirrored turned : String}

theorem answered_of_mirrored (different : first ≠ second)
    (reads : Statement.parse command = .ok (.join first second left right))
    (readsMirrored : Statement.parse mirrored = .ok (.join second first right left))
    (answered : ∃ answer, (session.execute command disk).1 = .answered answer) :
    ∃ answer, (session.execute mirrored disk).1 = .answered answer := by
  obtain ⟨answer, answered⟩ := answered
  obtain ⟨firstFree, secondFree, database, _, _, _, _, selected, binds, -⟩ :=
    (answered_join_iff session reads disk answer).mp answered
  exact ⟨_, (answered_join_iff session readsMirrored disk _).mpr
    ⟨secondFree, firstFree, database, _, _, _, _, selected, binds.swap different, rfl⟩⟩

theorem rearranges_of_mirrored (aligned : session.Holds Table.Aligned) (different : first ≠ second)
    (reads : Statement.parse command = .ok (.join first second left right))
    (readsMirrored : Statement.parse mirrored = .ok (.join second first right left))
    {other : ResultSet}
    (answered : (session.execute command disk).1 = .answered (.table result))
    (answeredMirrored : (session.execute mirrored disk).1 = .answered (.table other)) :
    result.Rearranges other := by
  obtain ⟨firstFree, secondFree, database, _, _, _, _, selected, binds, same⟩ :=
    (answered_join_iff session reads disk _).mp answered
  cases same
  have swapped := binds.swap different
  have again := (answered_join_iff session readsMirrored disk _).mpr
    ⟨secondFree, firstFree, database, _, _, _, _, selected, swapped, rfl⟩
  cases again.symm.trans answeredMirrored
  exact (joined_of_bindsJoin aligned selected binds).rearranges
    (joined_of_bindsJoin aligned selected swapped)

theorem answered_of_turned (qualified : left.table ≠ none ∨ right.table ≠ none)
    (reads : Statement.parse command = .ok (.join first second left right))
    (readsTurned : Statement.parse turned = .ok (.join first second right left))
    (answered : (session.execute command disk).1 = .answered answer) :
    (session.execute turned disk).1 = .answered answer := by
  obtain ⟨firstFree, secondFree, database, _, _, _, _, selected, binds, same⟩ :=
    (answered_join_iff session reads disk answer).mp answered
  exact (answered_join_iff session readsTurned disk answer).mpr
    ⟨firstFree, secondFree, database, _, _, _, _, selected, binds.turn qualified, same⟩

/-- Two different tables can stand in either order, and their attributes with them, and two
attributes of which one names its table can stand in either order too. In a join that is answered,
each attribute is a column of one of the tables, and of the one that it names. -/
theorem execute_join_symmetric (aligned : session.Holds Table.Aligned)
    (reads : Statement.parse command = .ok (.join first second left right))
    (readsMirrored : Statement.parse mirrored = .ok (.join second first right left))
    (readsTurned : Statement.parse turned = .ok (.join first second right left)) (disk : Disk) :
    (first ≠ second →
      ((∃ answer, (session.execute command disk).1 = .answered answer) ↔
        ∃ answer, (session.execute mirrored disk).1 = .answered answer) ∧
      ∀ result other, (session.execute command disk).1 = .answered (.table result) →
        (session.execute mirrored disk).1 = .answered (.table other) →
          result.Rearranges other) ∧
    (left.table ≠ none ∨ right.table ≠ none →
      ∀ answer, (session.execute command disk).1 = .answered answer ↔
        (session.execute turned disk).1 = .answered answer) ∧
    ∀ answer, (session.execute command disk).1 = .answered answer →
      ∃ database firstTable secondTable firstKey secondKey result,
        session.current = some database ∧ database.table first = .ok firstTable ∧
        database.table second = .ok secondTable ∧ answer = .table result ∧
        firstTable.Joined secondTable firstKey secondKey result ∧
        ((left.BoundTo first firstTable firstKey ∧ right.BoundTo second secondTable secondKey) ∨
          (right.BoundTo first firstTable firstKey ∧
            left.BoundTo second secondTable secondKey)) := by
  refine ⟨fun different => ⟨⟨?_, ?_⟩, fun result other => ?_⟩, fun qualified answer => ⟨?_, ?_⟩,
    fun answer answered => ?_⟩
  · exact answered_of_mirrored different reads readsMirrored
  · exact answered_of_mirrored different.symm readsMirrored reads
  · exact rearranges_of_mirrored aligned different reads readsMirrored
  · exact answered_of_turned qualified reads readsTurned
  · exact answered_of_turned qualified.symm readsTurned reads
  · obtain ⟨-, -, database, _, _, _, _, selected, binds, rfl⟩ :=
      (answered_join_iff session reads disk answer).mp answered
    exact ⟨database, _, _, _, _, _, selected, binds.firstFound, binds.secondFound, rfl,
      joined_of_bindsJoin aligned selected binds, binds.boundTo⟩

theorem execute_join_symmetric_qualified :
    let disk : Disk := ⟨[], [(["r"], .directory), (["r", "d"], .directory),
      (["r", "d", "a.tab"], .file "id\tx\n1\tp\n2\tq\n3\tp".toUTF8),
      (["r", "d", "b.tab"], .file "id\ty\tz\n1\tq\tu\n2\tp\tv".toUTF8)]⟩
    let session : Session := ⟨⟨⟨["r"]⟩⟩, some ⟨"d",
      [⟨"a", ["id", "x"], [["1", "p"], ["2", "q"], ["3", "p"]], 3⟩,
        ⟨"b", ["id", "y", "z"], [["1", "q", "u"], ["2", "p", "v"]], 2⟩]⟩⟩
    let result : ResultSet := ⟨["id", "b.z"], [["1", "v"], ["2", "u"], ["3", "v"]]⟩
    let mirrored : ResultSet := ⟨["id", "b.z"], [["1", "u"], ["2", "v"], ["3", "v"]]⟩
    (executeEach ⟨⟨⟨["r"]⟩⟩, none⟩ [("USE d;", disk)]).2 = session ∧
      session.Holds Table.Aligned ∧
      Statement.parse "JOIN a AND b ON b.y AND x;" =
        .ok (.join "a" "b" ⟨some "b", "y"⟩ ⟨none, "x"⟩) ∧
      Statement.parse "JOIN b AND a ON x AND b.y;" =
        .ok (.join "b" "a" ⟨none, "x"⟩ ⟨some "b", "y"⟩) ∧
      Statement.parse "JOIN a AND b ON x AND b.y;" =
        .ok (.join "a" "b" ⟨none, "x"⟩ ⟨some "b", "y"⟩) ∧
      (session.execute "JOIN a AND b ON b.y AND x;" disk).1 = .answered (.table result) ∧
      (session.execute "JOIN b AND a ON x AND b.y;" disk).1 = .answered (.table mirrored) ∧
      (session.execute "JOIN a AND b ON x AND b.y;" disk).1 = .answered (.table result) ∧
      result.Rearranges mirrored := by
  intro disk session result mirrored
  have visited : (executeEach ⟨⟨⟨["r"]⟩⟩, none⟩ [("USE d;", disk)]).2 = session := by
    decide +kernel
  have aligned : session.Holds Table.Aligned := aligned_of_visited visited
  have reads : Statement.parse "JOIN a AND b ON b.y AND x;" =
      .ok (.join "a" "b" ⟨some "b", "y"⟩ ⟨none, "x"⟩) := by decide +kernel
  have readsMirrored : Statement.parse "JOIN b AND a ON x AND b.y;" =
      .ok (.join "b" "a" ⟨none, "x"⟩ ⟨some "b", "y"⟩) := by decide +kernel
  have readsTurned : Statement.parse "JOIN a AND b ON x AND b.y;" =
      .ok (.join "a" "b" ⟨none, "x"⟩ ⟨some "b", "y"⟩) := by decide +kernel
  have answered : (session.execute "JOIN a AND b ON b.y AND x;" disk).1 =
      .answered (.table result) := by decide +kernel
  have answeredMirrored : (session.execute "JOIN b AND a ON x AND b.y;" disk).1 =
      .answered (.table mirrored) := by decide +kernel
  obtain ⟨exchanged, turned, -⟩ :=
    execute_join_symmetric aligned reads readsMirrored readsTurned disk
  have answeredTurned := (turned (.inl nofun) (.table result)).mp answered
  have rearranged := (exchanged (by decide)).2 result mirrored answered answeredMirrored
  exact ⟨visited, aligned, reads, readsMirrored, readsTurned, answered, answeredMirrored,
    answeredTurned, rearranged⟩

end Session

end TextTables
