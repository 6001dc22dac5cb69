import TextTables.Proofs.Session.Footprint
import TextTables.Proofs.Session.Queries

/-!
# What commands on one table come to

A command on a table that is there is refused for its name or for what it asks of the table, and
then nothing is changed, in memory as on the disk. Otherwise a query is answered, and a change is
saved and taken over.
-/

namespace TextTables.Session

open Work

variable {session : Session} {command name : String} {statement : Statement}
  {change : Table → Except SchemaError Table} {database : Database} {table : Table}

/-- A changed table stands where the table was, beside the same other tables. -/
theorem selected_of_update (changed : Table) (named : IsName name)
    (found : database.table name = .ok table) (called : changed.name = table.name) :
    (database.update changed).table name = .ok changed ∧
      (database.update changed).without name = database.without name := by
  have same : table.key = changed.key := by rw [Table.key, Table.key, called]
  have key : changed.key = name := by
    rw [← same, (Database.table_eq_ok found).2, named.lower]
  refine ⟨Database.table_update found same, ?_⟩
  rw [← key]
  exact Database.without_update changed database

/-- The statement fails for the given reason, and nothing is changed. -/
def refuse (session : Session) (statement : Statement) (disk : Disk) (reason : SchemaError) :
    Response × Session × Disk :=
  (.failed statement.activity (.schema reason), session, disk)

theorem perform_reserved {work : SessionM Answer} (reserved : isReserved name) (space : Workspace) :
    (do ofExcept (checkName name); work : SessionM Answer) space =
      .error (.schema (.reservedWord name)) space := by
  have refused : checkName name = .error (.schema (.reservedWord name)) := by
    simp [checkName, reserved]
  exact bind_error (by rw [refused]; rfl) _

theorem perform_unreserved {work : SessionM Answer} (free : isReserved name = false)
    (space : Workspace) :
    (do ofExcept (checkName name); work : SessionM Answer) space = work space := by
  have allowed : checkName name = .ok () := by simp [checkName, free]
  exact bind_ok (by rw [allowed]; rfl) _

theorem changeTable_apply {store : Store} {current : Option Database}
    (selected : current = some database) (found : database.table name = .ok table) (disk : Disk) :
    (do changeTable store name change; return .done : SessionM Answer) ⟨current, disk⟩ =
      match change table with
      | .error reason => .error (.schema reason) ⟨current, disk⟩
      | .ok changed => conclude current (fun _ => some (database.update changed))
          (store.saveTable database.name changed disk) := by
  subst selected
  unfold changeTable
  simp only [bind_assoc]
  refine (bind_ok rfl _).trans ((bind_ok (by rw [found]; rfl) _).trans ?_)
  cases outcome : change table with
  | error reason => exact bind_error rfl _
  | ok changed =>
      refine (bind_ok rfl _).trans (onDisk_bind ?_ disk)
      exact fun _ _ => rfl

/-- A change of a table that is there is refused, or it is saved and taken over. -/
theorem execute_change_eq (session : Session) (reads : Statement.parse command = .ok statement)
    (changes : statement.change? = some (name, change)) (selected : session.current = some database)
    (found : database.table name = .ok table) (disk : Disk) :
    session.execute command disk =
      if isReserved name then session.refuse statement disk (.reservedWord name)
      else
        match change table with
        | .error reason => session.refuse statement disk reason
        | .ok changed => session.respond statement
            (conclude session.current (fun _ => some (database.update changed))
              (session.store.saveTable database.name changed disk)) := by
  simp only [execute, reads, perform_change session.store changes]
  by_cases reserved : isReserved name
  · rw [perform_reserved reserved, if_pos reserved]
    rfl
  · rw [perform_unreserved (by simpa using reserved), if_neg reserved,
      changeTable_apply selected found]
    cases change table with
    | error reason => rfl
    | ok changed => cases session.store.saveTable database.name changed disk <;> rfl

theorem execute_change_iff (session : Session) (reads : Statement.parse command = .ok statement)
    (changes : statement.change? = some (name, change)) {disk after : Disk} {answer : Answer}
    {next : Session} :
    session.execute command disk = (.answered answer, next, after) ↔
      isReserved name = false ∧ ∃ database table changed, session.current = some database ∧
        database.table name = .ok table ∧ change table = .ok changed ∧
        session.store.saveTable database.name changed disk = .ok () after ∧ answer = .done ∧
        next = { session with current := some (database.update changed) } := by
  constructor
  · intro answered
    rcases execute_change session reads changes disk with ⟨error, later, failed⟩ |
      ⟨database, table, changed, later, selected, found, done, saved, executed⟩
    · cases failed.symm.trans answered
    · have again := execute_change_eq session reads changes selected found disk
      cases executed.symm.trans answered
      by_cases reserved : isReserved name
      · rw [if_pos reserved] at again
        cases executed.symm.trans again
      · exact ⟨by simpa using reserved, database, table, changed, selected, found, done, saved, rfl,
          rfl⟩
  · rintro ⟨free, database, table, changed, selected, found, done, saved, rfl, rfl⟩
    rw [execute_change_eq session reads changes selected found disk, free, done]
    simp [respond, conclude, saved]

/-- A query for a table that is there is refused or answered. -/
theorem execute_select_eq (session : Session) {columns : Selection} {condition : Option Condition}
    (reads : Statement.parse command = .ok (.select columns name condition))
    (selected : session.current = some database) (found : database.table name = .ok table)
    (disk : Disk) :
    session.execute command disk =
      if isReserved name then
        session.refuse (.select columns name condition) disk (.reservedWord name)
      else
        match table.select columns.names? condition with
        | .error reason => session.refuse (.select columns name condition) disk reason
        | .ok result => (.answered (.table result), session, disk) := by
  simp only [execute, reads, perform]
  by_cases reserved : isReserved name
  · rw [perform_reserved reserved, if_pos reserved]
    rfl
  · rw [perform_unreserved (by simpa using reserved), if_neg reserved]
    have shown : query name columns condition ⟨session.current, disk⟩ =
        match table.select columns.names? condition with
        | .error reason => .error (.schema reason) ⟨session.current, disk⟩
        | .ok result => .ok result ⟨session.current, disk⟩ := by
      unfold query
      rw [selected]
      refine (bind_ok rfl _).trans ((bind_ok (by rw [found]; rfl) _).trans ?_)
      cases columns <;> dsimp only [Selection.names?] <;> cases table.select _ condition <;> rfl
    cases outcome : table.select columns.names? condition with
    | error reason =>
        rw [outcome] at shown
        rw [bind_error shown]
        rfl
    | ok result =>
        rw [outcome] at shown
        rw [bind_ok shown]
        rfl

theorem exists_after {outcome : Response × Session × Disk} {response : Response} {next : Session}
    (responds : outcome.1 = response) (same : outcome.2.1 = next) :
    ∃ after, outcome = (response, next, after) :=
  ⟨outcome.2.2, Prod.ext responds (Prod.ext same rfl)⟩

/-- Work on the disk fails with faults of the disk only. -/
theorem error_of_ofDisk {Result : Type} {work : DiskM Result} {error : Error} {disk after : Disk}
    (failed : StoreM.ofDisk work disk = .error error after) : ∃ fault, error = .disk fault := by
  obtain ⟨fault, stopped⟩ := StoreM.ofDisk_eq_error failed
  cases (StoreM.ofDisk_error stopped).symm.trans failed
  exact ⟨fault, rfl⟩

theorem error_of_saveTable {store : Store} {changed : Table} {error : Error} {disk after : Disk}
    (failed : store.saveTable name changed disk = .error error after) :
    ∃ fault, error = .disk fault := by
  rcases bind_eq_error_iff.mp failed with first | ⟨⟨⟩, middle, -, second⟩
  · exact error_of_ofDisk first
  · exact error_of_ofDisk second

/-- A change is refused for the name of the table or by the table, and for nothing on the disk. -/
theorem refused_change_iff (reads : Statement.parse command = .ok statement)
    (changes : statement.change? = some (name, change)) (selected : session.current = some database)
    (found : database.table name = .ok table) (disk : Disk) :
    (∃ reason, (session.execute command disk).1 = .failed statement.activity (.schema reason)) ↔
      isReserved name ∨ ∃ reason, change table = .error reason := by
  rw [execute_change_eq session reads changes selected found disk]
  by_cases reserved : isReserved name
  · simp [reserved, refuse]
  · cases outcome : change table with
    | error reason => simp [reserved, refuse]
    | ok changed =>
        dsimp only
        cases saved : session.store.saveTable database.name changed disk with
        | ok result after => simp [reserved, respond, conclude]
        | error error after =>
            obtain ⟨fault, rfl⟩ := error_of_saveTable saved
            simp [reserved, respond, conclude]

theorem refused_select_iff {columns : Selection} {condition : Option Condition}
    (reads : Statement.parse command = .ok (.select columns name condition))
    (selected : session.current = some database) (found : database.table name = .ok table)
    (disk : Disk) :
    (∃ reason, (session.execute command disk).1 =
        .failed (Statement.activity (.select columns name condition)) (.schema reason)) ↔
      isReserved name ∨ ∃ reason, table.select columns.names? condition = .error reason := by
  rw [execute_select_eq session reads selected found disk]
  by_cases reserved : isReserved name
  · simp [reserved, refuse]
  · cases table.select columns.names? condition <;> simp [reserved, refuse]

end TextTables.Session
