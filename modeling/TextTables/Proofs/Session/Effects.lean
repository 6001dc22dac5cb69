import TextTables.Proofs.Database.Order
import TextTables.Proofs.Session.Changes

/-!
# What statements do to memory and disk

What is in memory tells whether a statement is refused, answers a query, or comes to one piece of
work on the disk, which is then the same whatever is on the disk. What the statement changes in
memory is taken over behind that work, and only if it succeeds.
-/

namespace TextTables.Session

theorem checkName_eq_ok_iff {name : String} {allowed : Unit} :
    checkName name = .ok allowed ↔ isReserved name = false := by
  cases reserved : isReserved name <;> simp [checkName, reserved]

/-- The statement ends with work on the disk, and takes over what it changes if that succeeds. -/
def conclude {Result : Type} (current : Option Database) (taken : Result → Option Database) :
    EStateM.Result Error Disk Result → EStateM.Result Error Workspace Answer
  | .ok result disk => .ok .done ⟨taken result, disk⟩
  | .error error disk => .error error ⟨current, disk⟩

/-- What a statement that is well spelled can come to. -/
inductive Effect (store : Store) (space : Workspace) :
    Statement → EStateM.Result Error Workspace Answer → Prop
  | refused (statement : Statement) (error : Error) :
      Effect store space statement (.error error space)
  | queried (columns : Selection) (name : String) (condition : Option Condition)
      (result : ResultSet) :
      Effect store space (.select columns name condition) (.ok (.table result) space)
  | joined (first second : String) (firstAttribute secondAttribute : Attribute)
      (result : ResultSet) :
      Effect store space (.join first second firstAttribute secondAttribute)
        (.ok (.table result) space)
  | used (name : String) :
      Effect store space (.use name)
        (conclude space.current some (store.loadDatabase name space.disk))
  | made (name : String) :
      Effect store space (.createDatabase name)
        (conclude space.current (fun _ => space.current) (store.createDatabase name space.disk))
  | dropped (name : String) :
      Effect store space (.dropDatabase name)
        (conclude space.current
          (fun _ => space.current.filter fun database => database.name ≠ name)
          (store.dropDatabase name space.disk))
  | created {name : String} {columns : List String} {database : Database} {table : Table}
      (selected : space.current = some database)
      (shaped : Table.withColumns name columns = .ok table)
      (fresh : ∀ other ∈ database.tables, other.key ≠ table.key) :
      Effect store space (.createTable name columns)
        (conclude space.current
          (fun _ => some { database with tables := Database.place table database.tables })
          (store.createTable database.name table space.disk))
  | removed {name : String} {database : Database} {table : Table}
      (selected : space.current = some database) (found : database.table name = .ok table) :
      Effect store space (.dropTable name)
        (conclude space.current
          (fun _ => some { database with
            tables := database.tables.filter fun other => other.key != table.key })
          (store.deleteTable database.name name space.disk))
  | changed {statement : Statement} {name : String} {change : Table → Except SchemaError Table}
      {database : Database} {table changed : Table}
      (changes : statement.change? = some (name, change))
      (selected : space.current = some database) (found : database.table name = .ok table)
      (done : change table = .ok changed) :
      Effect store space statement
        (conclude space.current (fun _ => some (database.update changed))
          (store.saveTable database.name changed space.disk))

/-- What a statement comes to on every disk, given what is in memory. -/
inductive Plan (store : Store) (current : Option Database) :
    Statement → (Disk → EStateM.Result Error Workspace Answer) → Prop
  | refused (statement : Statement) (error : Error) :
      Plan store current statement fun disk => .error error ⟨current, disk⟩
  | queried (columns : Selection) (name : String) (condition : Option Condition)
      (result : ResultSet) :
      Plan store current (.select columns name condition)
        fun disk => .ok (.table result) ⟨current, disk⟩
  | joined (first second : String) (firstAttribute secondAttribute : Attribute)
      (result : ResultSet) :
      Plan store current (.join first second firstAttribute secondAttribute)
        fun disk => .ok (.table result) ⟨current, disk⟩
  | used (name : String) :
      Plan store current (.use name)
        fun disk => conclude current some (store.loadDatabase name disk)
  | made {name : String} (allowed : checkName name = .ok ()) :
      Plan store current (.createDatabase name)
        fun disk => conclude current (fun _ => current) (store.createDatabase name disk)
  | dropped (name : String) :
      Plan store current (.dropDatabase name)
        fun disk => conclude current
          (fun _ => current.filter fun database => database.name ≠ name)
          (store.dropDatabase name disk)
  | created {name : String} {columns : List String} {database : Database} {table : Table}
      (selected : current = some database) (shaped : Table.withColumns name columns = .ok table)
      (fresh : ∀ other ∈ database.tables, other.key ≠ table.key) :
      Plan store current (.createTable name columns)
        fun disk => conclude current
          (fun _ => some { database with tables := Database.place table database.tables })
          (store.createTable database.name table disk)
  | removed {name : String} {database : Database} {table : Table}
      (selected : current = some database) (found : database.table name = .ok table) :
      Plan store current (.dropTable name)
        fun disk => conclude current
          (fun _ => some { database with
            tables := database.tables.filter fun other => other.key != table.key })
          (store.deleteTable database.name name disk)
  | changed {statement : Statement} {name : String} {change : Table → Except SchemaError Table}
      {database : Database} {table changed : Table}
      (changes : statement.change? = some (name, change))
      (selected : current = some database) (found : database.table name = .ok table)
      (done : change table = .ok changed) :
      Plan store current statement
        fun disk => conclude current (fun _ => some (database.update changed))
          (store.saveTable database.name changed disk)

variable {store : Store} {current : Option Database} {statement : Statement}

/-- Behind work on the disk that succeeds, what it comes to is taken over. -/
theorem onDisk_bind {Result : Type} {work : StoreM Result} {taken : Result → Option Database}
    {next : Result → SessionM Answer}
    (last : ∀ result disk, next result ⟨current, disk⟩ = .ok .done ⟨taken result, disk⟩)
    (start : Disk) :
    (SessionM.onDisk work >>= next) ⟨current, start⟩ = conclude current taken (work start) := by
  cases outcome : work start with
  | ok result disk =>
      have done : SessionM.onDisk work ⟨current, start⟩ = .ok result ⟨current, disk⟩ := by
        simp [SessionM.onDisk, outcome]
      exact (Work.bind_ok done next).trans (last result disk)
  | error error disk =>
      have failed : SessionM.onDisk work ⟨current, start⟩ = .error error ⟨current, disk⟩ := by
        simp [SessionM.onDisk, outcome]
      exact Work.bind_error failed next

namespace Plan

variable {outcome : Disk → EStateM.Result Error Workspace Answer}

theorem effect (plan : Plan store current statement outcome) (disk : Disk) :
    Effect store ⟨current, disk⟩ statement (outcome disk) := by
  cases plan with
  | refused statement error => exact .refused statement error
  | queried columns name condition result => exact .queried columns name condition result
  | joined first second firstAttribute secondAttribute result => exact .joined _ _ _ _ result
  | used name => exact .used name
  | made allowed => exact .made _
  | dropped name => exact .dropped name
  | created selected shaped fresh => exact .created selected shaped fresh
  | removed selected found => exact .removed selected found
  | changed changes selected found done => exact .changed changes selected found done

/-- A check that fails ends the statement, and one that succeeds leaves all as it is. -/
theorem check {Result : Type} {outcome : Except Error Result} {next : Result → SessionM Answer}
    (rest : ∀ result, outcome = .ok result →
      Plan store current statement fun disk => next result ⟨current, disk⟩) :
    Plan store current statement fun disk => (ofExcept outcome >>= next) ⟨current, disk⟩ := by
  cases outcome with
  | error error => exact .refused statement error
  | ok result => exact rest result rfl

theorem selection {next : Database → SessionM Answer}
    (rest : ∀ database, current = some database →
      Plan store current statement fun disk => next database ⟨current, disk⟩) :
    Plan store current statement fun disk => (SessionM.selected >>= next) ⟨current, disk⟩ := by
  cases current with
  | none => exact .refused statement .noDatabaseSelected
  | some database => exact rest database rfl

/-- Work on the disk with nothing but a change in memory behind it ends the statement. -/
theorem ending {Result : Type} {work : StoreM Result} {taken : Result → Option Database}
    {next : Result → SessionM Answer}
    (plan : Plan store current statement fun disk => conclude current taken (work disk))
    (last : ∀ result disk, next result ⟨current, disk⟩ = .ok .done ⟨taken result, disk⟩) :
    Plan store current statement
      fun disk => (SessionM.onDisk work >>= next) ⟨current, disk⟩ := by
  rwa [funext (onDisk_bind last)]

end Plan

theorem deselect_apply (name : String) (current : Option Database) (disk : Disk) :
    SessionM.deselect name ⟨current, disk⟩ =
      .ok () ⟨current.filter fun database => database.name ≠ name, disk⟩ := by
  cases current with
  | none => rfl
  | some database =>
      by_cases same : database.name = name <;>
        simp [SessionM.deselect, modify, modifyGet, MonadStateOf.modifyGet, EStateM.modifyGet,
          Option.filter, same]

theorem change_plan {name : String} {change : Table → Except SchemaError Table}
    (changes : statement.change? = some (name, change)) :
    Plan store current statement fun disk => perform store statement ⟨current, disk⟩ := by
  rw [perform_change store changes]
  refine Plan.check fun _ _ => ?_
  unfold changeTable
  simp only [bind_assoc]
  refine Plan.selection fun database selected => ?_
  refine Plan.check fun table found => ?_
  refine Plan.check fun changed accepted => ?_
  have done : change table = .ok changed := Work.mapError_eq_ok_iff.mp accepted
  exact Plan.ending (.changed changes selected found done) fun _ _ => rfl

/-- Every statement that is well spelled comes to one of these plans. -/
theorem perform_plan (store : Store) (current : Option Database) (spelled : statement.WellSpelled) :
    Plan store current statement fun disk => perform store statement ⟨current, disk⟩ := by
  cases statement with
  | use name => exact Plan.check fun _ _ => Plan.ending (.used name) fun _ _ => rfl
  | createDatabase name =>
      exact Plan.check fun _ allowed => Plan.ending (.made allowed) fun _ _ => rfl
  | dropDatabase name =>
      refine Plan.check fun _ _ => Plan.ending (.dropped name) fun _ disk => ?_
      exact Work.bind_ok (deselect_apply name current disk) _
  | createTable name columns =>
      refine Plan.check fun _ _ => ?_
      unfold createTable
      simp only [bind_assoc]
      refine Plan.selection fun database selected => ?_
      refine Plan.check fun _ free => ?_
      refine Plan.check fun table accepted => ?_
      have shaped : Table.withColumns name columns = .ok table :=
        Work.mapError_eq_ok_iff.mp accepted
      obtain ⟨-, called, -⟩ := Table.Sound.withColumns spelled.1 spelled.2 shaped
      have fresh : ∀ other ∈ database.tables, other.key ≠ table.key := by
        rw [Table.key, called]
        exact Database.requireFree_eq_ok free
      rw [Database.addTable_ok fresh]
      exact Plan.ending (.created selected shaped fresh) fun _ _ => rfl
  | dropTable name =>
      refine Plan.check fun _ _ => ?_
      unfold dropTable
      simp only [bind_assoc]
      refine Plan.selection fun database selected => ?_
      refine Plan.check fun table found => ?_
      rw [Database.removeTable_ok found]
      exact Plan.ending (.removed selected found) fun _ _ => rfl
  | alter name alteration column => exact change_plan rfl
  | insert name values => exact change_plan rfl
  | update name assignments condition => exact change_plan rfl
  | delete name condition => exact change_plan rfl
  | select columns name condition =>
      refine Plan.check fun _ _ => ?_
      unfold query
      simp only [bind_assoc]
      refine Plan.selection fun database _ => ?_
      refine Plan.check fun table _ => ?_
      exact Plan.check fun result _ => .queried columns name condition result
  | join first second firstAttribute secondAttribute =>
      refine Plan.check fun _ _ => Plan.check fun _ _ => ?_
      refine Plan.selection fun database _ => ?_
      exact Plan.check fun result _ => .joined _ _ _ _ result

/-- What the user is told of a statement, and the session and the disk behind it. -/
def respond (session : Session) (statement : Statement) :
    EStateM.Result Error Workspace Answer → Response × Session × Disk
  | .ok answer space => (.answered answer, { session with current := space.current }, space.disk)
  | .error error space =>
      (.failed statement.activity error, { session with current := space.current }, space.disk)

/-- A command that is read is carried out on every disk by one plan. -/
theorem execute_plan (session : Session) {command : String}
    (reads : Statement.parse command = .ok statement) :
    ∃ outcome, Plan session.store session.current statement outcome ∧
      ∀ disk, session.execute command disk = session.respond statement (outcome disk) := by
  refine ⟨_, perform_plan _ _ (Statement.wellSpelled_of_parse reads), fun disk => ?_⟩
  simp only [execute, reads]
  cases perform session.store statement ⟨session.current, disk⟩ <;> rfl

/-- A database is selected exactly if its name is free to use and it can be read. -/
theorem execute_use_iff (session : Session) {command name : String}
    (reads : Statement.parse command = .ok (.use name)) {disk after : Disk} {next : Session} :
    session.execute command disk = (.answered .done, next, after) ↔
      isReserved name = false ∧ ∃ database,
        session.store.loadDatabase name disk = .ok database after ∧
          next = { session with current := some database } := by
  simp only [execute, reads]
  cases reserved : isReserved name with
  | true =>
      have refused : checkName name = .error (.schema (.reservedWord name)) := by
        simp [checkName, reserved]
      have failed : perform session.store (.use name) ⟨session.current, disk⟩ =
          .error (.schema (.reservedWord name)) ⟨session.current, disk⟩ :=
        Work.bind_error (by rw [refused]; rfl) _
      simp [failed]
  | false =>
      have allowed : checkName name = .ok () := by simp [checkName, reserved]
      have concluded : perform session.store (.use name) ⟨session.current, disk⟩ =
          conclude session.current some (session.store.loadDatabase name disk) := by
        refine (Work.bind_ok (by rw [allowed]; rfl) _).trans (onDisk_bind ?_ disk)
        exact fun _ _ => rfl
      rw [concluded]
      cases session.store.loadDatabase name disk with
      | ok database later => simp [conclude, eq_comm, and_comm]
      | error error later => simp [conclude]

/-- A table of the selected database is removed from the disk, and then from memory. -/
theorem execute_dropTable (session : Session) {command name : String} {database : Database}
    {table : Table} (reads : Statement.parse command = .ok (.dropTable name))
    (unreserved : isReserved name = false) (selected : session.current = some database)
    (found : database.table name = .ok table) (disk : Disk) :
    session.execute command disk = session.respond (.dropTable name)
      (conclude session.current
        (fun _ => some { database with
          tables := database.tables.filter fun other => other.key != table.key })
        (session.store.deleteTable database.name name disk)) := by
  have allowed : checkName name = .ok () := by simp [checkName, unreserved]
  have concluded : perform session.store (.dropTable name) ⟨session.current, disk⟩ =
      conclude session.current
        (fun _ => some { database with
          tables := database.tables.filter fun other => other.key != table.key })
        (session.store.deleteTable database.name name disk) := by
    refine (Work.bind_ok (by rw [allowed]; rfl) _).trans ?_
    unfold dropTable
    simp only [bind_assoc, selected]
    refine (Work.bind_ok rfl _).trans ((Work.bind_ok (by rw [found]; rfl) _).trans ?_)
    rw [Database.removeTable_ok found]
    refine onDisk_bind ?_ disk
    exact fun _ _ => rfl
  simp only [execute, reads, concluded]
  cases session.store.deleteTable database.name name disk <;> rfl

/-- A text that is no command changes nothing, and a command comes to an effect of its statement. -/
theorem execute_cases (session : Session) (command : String) (disk : Disk) :
    (∃ error, Statement.parse command = .error error ∧
      session.execute command disk = (.failed "Invalid query" error, session, disk)) ∨
    ∃ statement outcome, Statement.parse command = .ok statement ∧ statement.WellSpelled ∧
      Effect session.store ⟨session.current, disk⟩ statement outcome ∧
      session.execute command disk = session.respond statement outcome := by
  cases reads : Statement.parse command with
  | error error => exact .inl ⟨error, rfl, by simp only [execute, reads]⟩
  | ok statement =>
      obtain ⟨outcome, plan, same⟩ := execute_plan session reads
      exact .inr ⟨statement, outcome disk, rfl, Statement.wellSpelled_of_parse reads,
        plan.effect disk, same disk⟩

/-- A command that changes a table fails and leaves memory as it is, or takes the changed table over
once its files are written. -/
theorem execute_change (session : Session) {command name : String}
    {change : Table → Except SchemaError Table} (reads : Statement.parse command = .ok statement)
    (changes : statement.change? = some (name, change)) (disk : Disk) :
    (∃ error after,
      session.execute command disk = (.failed statement.activity error, session, after)) ∨
    ∃ database table changed after, session.current = some database ∧
      database.table name = .ok table ∧ change table = .ok changed ∧
      session.store.saveTable database.name changed disk = .ok () after ∧
      session.execute command disk =
        (.answered .done, { session with current := some (database.update changed) }, after) := by
  rcases execute_cases session command disk with ⟨error, refused, -⟩ |
    ⟨_, outcome, again, -, effect, same⟩
  · cases refused.symm.trans reads
  cases again.symm.trans reads
  rw [same]
  cases effect with
  | refused statement error => exact .inl ⟨error, disk, rfl⟩
  | queried | joined | used | made | dropped | created | removed => cases changes
  | @changed _ _ other database table changed ofName selected found done =>
      cases ofName.symm.trans changes
      cases saved : session.store.saveTable database.name changed disk with
      | ok result after =>
          exact .inr ⟨database, table, changed, after, selected, found, done, saved, rfl⟩
      | error error after => exact .inl ⟨error, after, rfl⟩

end TextTables.Session
