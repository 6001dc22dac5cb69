import TextTables.Proofs.Session.Outcomes
import TextTables.Proofs.Table.Assignments

/-!
# Commands with a condition

Queries, updates and deletions go through a table with a condition. Besides its name and what else
they ask of the table, they are refused for a column of the condition that the table lacks, and only
if the table has rows on which the condition is to be evaluated.
-/

namespace TextTables

open Work

namespace Statement

/-- The table that the statement goes through with a condition, and the condition. -/
def filter? : Statement → Option (String × Condition)
  | select _ name (some condition) => some (name, condition)
  | update name _ condition => some (name, condition)
  | delete name condition => some (name, condition)
  | _ => none

/-- The table gives what the statement asks of it besides the condition. -/
def Suits : Statement → Table → Prop
  | select (.only names) _ _, table => ∀ name ∈ names, ¬ table.lacks name
  | update _ assignments _, table => table.firstRefusal? assignments = none
  | _, _ => True

variable {statement : Statement} {name : String} {condition : Condition}

/-- The three kinds of statements with a condition. -/
theorem filter?_cases (filters : statement.filter? = some (name, condition)) :
    (∃ columns, statement = .select columns name (some condition)) ∨
    (∃ assignments, statement = .update name assignments condition) ∨
    statement = .delete name condition := by
  cases statement with
  | select columns table filter =>
      cases filter with
      | none => cases filters
      | some filter =>
          cases filters
          exact .inl ⟨columns, rfl⟩
  | update table assignments filter =>
      cases filters
      exact .inr (.inl ⟨assignments, rfl⟩)
  | delete table filter =>
      cases filters
      exact .inr (.inr rfl)
  | _ => cases filters

end Statement

namespace Table

variable {table : Table} {condition : Condition} {assignments : List (String × Literal)}
  {columns : Selection} {name : String} {error : SchemaError}

theorem refused_select_iff_suits (regular : table.Regular) :
    (∃ error, table.select columns.names? (some condition) = .error error) ↔
      ¬ Statement.Suits (.select columns name (some condition)) table ∨
        ¬ condition.IsEvaluable table := by
  rw [refused_select_iff regular, or_comm]
  refine or_congr_left ?_
  cases columns with
  | all =>
      refine iff_of_false (fun ⟨column, asked, missing⟩ => ?_) (not_not_intro trivial)
      exact not_lacks_of_mem asked missing
  | only names => simp [Statement.Suits, Selection.names?, chosen]

theorem refused_update_iff (regular : table.Regular) :
    (∃ error, table.update assignments condition = .error error) ↔
      table.firstRefusal? assignments ≠ none ∨ ¬ condition.IsEvaluable table := by
  rw [exists_error_iff, ← not_and_or]
  simp only [Ne, update_eq_ok_iff regular]
  exact ⟨fun never accepted => never _ ⟨accepted.1, accepted.2, rfl⟩,
    fun refused changed accepted => refused ⟨accepted.1, accepted.2.1⟩⟩

theorem refused_delete_iff (regular : table.Regular) :
    (∃ error, table.delete condition = .error error) ↔ ¬ condition.IsEvaluable table := by
  rw [exists_error_iff]
  simp only [Ne, delete_eq_ok_iff regular]
  exact ⟨fun never accepted => never _ ⟨accepted, rfl⟩,
    fun refused changed accepted => refused accepted.1⟩

theorem select_of_mask (evaluated : condition.mask table = .error error)
    (asked : Option (List String)) : table.select asked (some condition) = .error error := by
  rw [select, evaluated]
  rfl

theorem update_of_mask (regular : table.Regular)
    (allowed : table.firstRefusal? assignments = none)
    (evaluated : condition.mask table = .error error) :
    table.update assignments condition = .error error := by
  rw [update_eq regular allowed, evaluated]
  rfl

theorem delete_of_mask (regular : table.Regular)
    (evaluated : condition.mask table = .error error) :
    table.delete condition = .error error := by
  rw [delete_eq regular, evaluated]
  rfl

end Table

namespace Session

open Table

variable {session : Session} {name : String} {database : Database} {table : Table}

/-- On a table of however many rows, a condition is refused exactly if there are rows and it names a
column that the table lacks. A command with the condition is then refused as well, and otherwise for
its name or for what else it asks of the table, and in no other case. -/
theorem refused_filter_iff {root : Path} {visits : List (String × Disk)}
    (visited : (executeEach ⟨⟨root⟩, none⟩ visits).2 = session)
    (selected : session.current = some database) (found : database.table name = .ok table)
    (condition : Condition) :
    (∀ other : Table, other.Regular → ∀ error, condition.mask other = .error error ↔
      other.rows ≠ [] ∧ ∃ column, condition.columns.find? other.lacks = some column ∧
        error = .unknownColumn column) ∧
    ∀ command statement disk, Statement.parse command = .ok statement →
      statement.filter? = some (name, condition) →
        ((∃ reason, (session.execute command disk).1 =
            .failed statement.activity (.schema reason)) ↔
          isReserved name ∨ ¬ statement.Suits table ∨
            table.rows ≠ [] ∧ ∃ column ∈ condition.columns, table.lacks column) ∧
        ∀ error, isReserved name = false → statement.Suits table →
          condition.mask table = .error error →
            session.execute command disk = session.refuse statement disk error := by
  have regular := regular_of_found visited selected found
  refine ⟨fun other regular error => Condition.mask_eq_error_iff regular.wide, ?_⟩
  intro command statement disk reads filters
  rw [← Condition.not_isEvaluable_iff]
  rcases Statement.filter?_cases filters with ⟨columns, rfl⟩ | ⟨assignments, rfl⟩ | rfl
  · refine ⟨?_, fun error free _ evaluated => ?_⟩
    · rw [refused_select_iff reads selected found disk, refused_select_iff_suits regular]
    · rw [execute_select_eq session reads selected found disk, free, select_of_mask evaluated]
      rfl
  · refine ⟨?_, fun error free suits evaluated => ?_⟩
    · rw [refused_change_iff reads rfl selected found disk, refused_update_iff regular]
      rfl
    · rw [execute_change_eq session reads rfl selected found disk, free,
        update_of_mask regular suits evaluated]
      rfl
  · refine ⟨?_, fun error free _ evaluated => ?_⟩
    · have suits : Statement.Suits (.delete name condition) table := trivial
      rw [refused_change_iff reads rfl selected found disk, refused_delete_iff regular,
        or_iff_right (not_not_intro suits)]
    · rw [execute_change_eq session reads rfl selected found disk, free,
        delete_of_mask regular evaluated]
      rfl

theorem refused_filter_iff_either :
    let disk : Disk := ⟨[], [(["r"], .directory), (["r", "d"], .directory),
      (["r", "d", "e.tab"], .file "id\ta".toUTF8),
      (["r", "d", "t.tab"], .file "id\ta\n1\tx".toUTF8)]⟩
    let e : Table := ⟨"e", ["id", "a"], [], 0⟩
    let t : Table := ⟨"t", ["id", "a"], [["1", "x"]], 1⟩
    let session : Session := ⟨⟨⟨["r"]⟩⟩, some ⟨"d", [e, t]⟩⟩
    let condition : Condition := .combine .or (.comparison "a" .equal ⟨"'x'", .string⟩)
      (.comparison "ghost" .equal ⟨"1", .integer⟩)
    (executeEach ⟨⟨⟨["r"]⟩⟩, none⟩ [("USE d;", disk)]).2 = session ∧
      condition.mask t = .error (.unknownColumn "ghost") ∧
      session.execute "DELETE FROM t WHERE a == 'x' OR ghost == 1;" disk =
        session.refuse (.delete "t" condition) disk (.unknownColumn "ghost") ∧
      ¬ ∃ reason, (session.execute "DELETE FROM e WHERE a == 'x' OR ghost == 1;" disk).1 =
        .failed "Failed deleting from table" (.schema reason) := by
  intro disk e t session condition
  have visited : (executeEach ⟨⟨⟨["r"]⟩⟩, none⟩ [("USE d;", disk)]).2 = session := by
    decide +kernel
  have foundEmpty : Database.table ⟨"d", [e, t]⟩ "e" = .ok e := by decide +kernel
  have found : Database.table ⟨"d", [e, t]⟩ "t" = .ok t := by decide +kernel
  have regular : t.Regular := regular_of_found visited rfl found
  have missing : condition.columns.find? t.lacks = some "ghost" := by decide +kernel
  obtain ⟨masks, refused⟩ := refused_filter_iff visited rfl found condition
  obtain ⟨-, accepted⟩ := refused_filter_iff visited rfl foundEmpty condition
  have evaluated : condition.mask t = .error (.unknownColumn "ghost") :=
    (masks t regular _).mpr ⟨by decide, "ghost", missing, rfl⟩
  refine ⟨visited, evaluated, ?_, fun failed => ?_⟩
  · refine (refused _ (.delete "t" condition) disk ?_ rfl).2 _ ?_ trivial evaluated
    · decide +kernel
    · decide +kernel
  · rcases (accepted _ (.delete "e" condition) disk (by decide +kernel) rfl).1.mp failed with
      reserved | misfit | ⟨filled, -⟩
    · revert reserved
      decide +kernel
    · exact misfit trivial
    · exact filled rfl

/-- One and the same query for a column that is not there is answered by a table without rows, and
refused by a table of the same columns with a row. -/
theorem not_refused_filter :
    ∃ (disk : Disk) (session : Session) (e t : Table) (condition : Condition),
      (executeEach ⟨⟨⟨["r"]⟩⟩, none⟩ [("USE d;", disk)]).2 = session ∧
      session.current = some ⟨"d", [e, t]⟩ ∧ e.columns = t.columns ∧
      Statement.parse "SELECT * FROM e WHERE ghost == 1;" =
        .ok (.select .all e.name (some condition)) ∧
      Statement.parse "SELECT * FROM t WHERE ghost == 1;" =
        .ok (.select .all t.name (some condition)) ∧
      (∃ column ∈ condition.columns, e.lacks column) ∧ condition.mask e = .ok [] ∧
      (session.execute "SELECT * FROM e WHERE ghost == 1;" disk).1 =
        .answered (.table ⟨e.columns, []⟩) ∧
      (session.execute "SELECT * FROM t WHERE ghost == 1;" disk).1 =
        .failed "Failed getting data from table" (.schema (.unknownColumn "ghost")) := by
  refine ⟨⟨[], [(["r"], .directory), (["r", "d"], .directory),
      (["r", "d", "e.tab"], .file "id\ta".toUTF8),
      (["r", "d", "t.tab"], .file "id\ta\n1\tx".toUTF8)]⟩, _,
    ⟨"e", ["id", "a"], [], 0⟩, ⟨"t", ["id", "a"], [["1", "x"]], 1⟩,
    .comparison "ghost" .equal ⟨"1", .integer⟩, rfl, ?_, rfl, ?_, ?_, ⟨"ghost", ?_, ?_⟩, rfl, ?_,
    ?_⟩ <;> decide +kernel

end Session

end TextTables
