import TextTables.Proofs.Session.Effects
import TextTables.Proofs.Store.Reading

/-!
# Sessions on a disk that others change

Other sessions and other programs can work on the disk between two commands, so that each command
of a session can find any disk. What is known of the tables in memory then comes from how they got
there: made by a command, changed by one, or read from files.
-/

namespace TextTables

/-- New tables have the property, and changes keep it. -/
structure Table.Lasting (property : Table → Prop) : Prop where
  made : ∀ {name : String} {columns : List String} {table : Table},
    (Statement.createTable name columns).WellSpelled → Table.withColumns name columns = .ok table →
      property table
  changed : ∀ {statement : Statement} {name : String} {change : Table → Except SchemaError Table}
    {table changed : Table}, statement.WellSpelled → statement.change? = some (name, change) →
      property table → change table = .ok changed → property changed

namespace Session

/-- Executes commands one after the other, each on the disk that it finds. -/
def executeEach (session : Session) : List (String × Disk) → List (Response × Disk) × Session
  | [] => ([], session)
  | (command, disk) :: visits =>
      let (response, next, after) := session.execute command disk
      let (others, last) := next.executeEach visits
      ((response, after) :: others, last)

/-- What each command keeps up, whatever it is and whatever disk it finds, all visits keep up. -/
theorem executeEach_preserves {session : Session} (property : Session → Prop)
    (step : ∀ session command disk, property session →
      property (session.execute command disk).2.1)
    (start : property session) (visits : List (String × Disk)) :
    property (session.executeEach visits).2 := by
  induction visits generalizing session with
  | nil => exact start
  | cons visit rest inductionHypothesis =>
      obtain ⟨command, disk⟩ := visit
      exact inductionHypothesis (step session command disk start)

/-- Every table that the session holds has the property. -/
def Holds (session : Session) (property : Table → Prop) : Prop :=
  ∀ database, session.current = some database → ∀ table ∈ database.tables, property table

/-- All tables that the command reads from the disk have the property. -/
def Reads (session : Session) (command : String) (disk : Disk) (property : Table → Prop) : Prop :=
  ∀ name database after, Statement.parse command = .ok (.use name) →
    session.store.loadDatabase name disk = .ok database after →
      (session.execute command disk).1 = .answered .done → ∀ table ∈ database.tables, property table

variable {session : Session} {command : String} {disk : Disk} {property : Table → Prop}

theorem respond_conclude {Result : Type} (session : Session) (statement : Statement)
    (taken : Result → Option Database) (outcome : EStateM.Result Error Disk Result) :
    (session.respond statement (conclude session.current taken outcome)).2.1 =
      match outcome with
      | .ok result _ => { session with current := taken result }
      | .error _ _ => session := by
  cases outcome <;> rfl

/-- Where the database comes from that is selected behind a command. -/
inductive Selects (session : Session) (command : String) (disk : Disk) : Database → Prop
  | kept {database : Database} (before : session.current = some database) :
      Selects session command disk database
  | loaded {name : String} {database : Database} {after : Disk}
      (reads : Statement.parse command = .ok (.use name))
      (done : session.store.loadDatabase name disk = .ok database after)
      (answered : (session.execute command disk).1 = .answered .done) :
      Selects session command disk database
  | created {name : String} {columns : List String} {database : Database} {table : Table}
      (reads : Statement.parse command = .ok (.createTable name columns))
      (before : session.current = some database)
      (shaped : Table.withColumns name columns = .ok table)
      (fresh : ∀ other ∈ database.tables, other.key ≠ table.key) :
      Selects session command disk
        { database with tables := Database.place table database.tables }
  | removed {name : String} {database : Database} {table : Table}
      (reads : Statement.parse command = .ok (.dropTable name))
      (before : session.current = some database) (found : database.table name = .ok table) :
      Selects session command disk
        { database with tables := database.tables.filter fun other => other.key != table.key }
  | changed {statement : Statement} {name : String} {change : Table → Except SchemaError Table}
      {database : Database} {table changed : Table}
      (reads : Statement.parse command = .ok statement)
      (changes : statement.change? = some (name, change))
      (before : session.current = some database) (found : database.table name = .ok table)
      (done : change table = .ok changed) :
      Selects session command disk (database.update changed)

theorem selects_of_execute {database : Database}
    (selected : (session.execute command disk).2.1.current = some database) :
    session.Selects command disk database := by
  rcases execute_cases session command disk with ⟨error, -, same⟩ |
    ⟨statement, outcome, reads, -, effect, same⟩
  · rw [same] at selected
    exact .kept selected
  have answered : (session.execute command disk).1 = (session.respond statement outcome).1 :=
    congrArg Prod.fst same
  rw [same] at selected
  -- Memory changes only where work on the disk succeeds.
  have concluded : ∀ {Result : Type} {taken : Result → Option Database}
      {work : EStateM.Result Error Disk Result},
      (session.respond statement (conclude session.current taken work)).2.1.current =
          some database →
        session.current = some database ∨
          ∃ result after, work = .ok result after ∧ taken result = some database := by
    intro Result taken work selected
    rw [respond_conclude] at selected
    cases work with
    | ok result after => exact .inr ⟨result, after, rfl, selected⟩
    | error error after => exact .inl selected
  cases effect with
  | refused statement error => exact .kept selected
  | queried columns name condition result => exact .kept selected
  | joined first second firstAttribute secondAttribute result => exact .kept selected
  | used name =>
      rcases concluded selected with before | ⟨loaded, after, done, taken⟩
      · exact .kept before
      · cases taken
        rw [done] at answered
        exact .loaded reads done answered
  | made name =>
      rcases concluded selected with before | ⟨-, -, -, before⟩ <;> exact .kept before
  | dropped name =>
      rcases concluded selected with before | ⟨-, -, -, before⟩
      · exact .kept before
      · exact .kept (Option.filter_eq_some_iff.mp before).1
  | created before shaped fresh =>
      rcases concluded selected with before | ⟨-, -, -, taken⟩
      · exact .kept before
      · cases taken
        exact .created reads before shaped fresh
  | removed before found =>
      rcases concluded selected with before | ⟨-, -, -, taken⟩
      · exact .kept before
      · cases taken
        exact .removed reads before found
  | changed changes before found done =>
      rcases concluded selected with before | ⟨-, -, -, taken⟩
      · exact .kept before
      · cases taken
        exact .changed reads changes before found done

/-- What tables keep to when they are made, changed and read, all tables of a session keep to. -/
theorem Holds.execute (holds : session.Holds property) (lasting : Table.Lasting property)
    (reads : session.Reads command disk property) :
    (session.execute command disk).2.1.Holds property := by
  intro database selected table member
  cases selects_of_execute selected with
  | kept before => exact holds database before table member
  | loaded parsed done answered => exact reads _ database _ parsed done answered table member
  | created parsed before shaped fresh =>
      rcases Database.mem_place.mp member with rfl | old
      · exact lasting.made (Statement.wellSpelled_of_parse parsed) shaped
      · exact holds _ before table old
  | removed parsed before found => exact holds _ before table (List.mem_of_mem_filter member)
  | changed parsed changes before found done =>
      obtain ⟨old, inside, rfl⟩ := List.mem_map.mp member
      split
      · exact lasting.changed (Statement.wellSpelled_of_parse parsed) changes
          (holds _ before _ (Database.table_eq_ok found).1) done
      · exact holds _ before old inside

/-- A session that has just been opened holds no tables. -/
theorem holds_openAt {root : Path} {start : Disk} (opened : openAt root disk = .ok session start)
    (property : Table → Prop) : session.Holds property := by
  obtain ⟨store, middle, -, finished⟩ := Work.bind_eq_ok_iff.mp opened
  cases finished
  intro database selected
  cases selected

end Session

theorem Table.lasting_regular : Table.Lasting Table.Regular where
  made _ shaped := Regular.withColumns shaped
  changed spelled changes regular done := by
    rcases Statement.change?_cases changes with ⟨alteration, column, rfl, rfl⟩ |
      ⟨values, rfl, rfl⟩ | ⟨assignments, condition, rfl, rfl⟩ | ⟨condition, rfl, rfl⟩
    · cases alteration with
      | add => exact regular.addColumn done
      | drop => exact regular.dropColumn done
    · exact regular.insert done
    · exact regular.update done
    · exact regular.delete done

/-- However the disk changes in between, every table of a session is regular. -/
theorem Session.Holds.regular {session : Session} (holds : session.Holds Table.Regular)
    (command : String) (disk : Disk) :
    (session.execute command disk).2.1.Holds Table.Regular :=
  holds.execute Table.lasting_regular fun _ _ _ _ loaded _ => Store.regular_of_loadDatabase loaded

theorem Session.Holds.regular_executeEach {session : Session}
    (holds : session.Holds Table.Regular) (visits : List (String × Disk)) :
    (session.executeEach visits).2.Holds Table.Regular :=
  executeEach_preserves (fun session => session.Holds Table.Regular)
    (fun _ command disk holds => holds.regular command disk) holds visits

/-- A session that starts with nothing selected comes to regular tables only. -/
theorem Session.regular_of_visited {session : Session} {root : Path}
    {visits : List (String × Disk)} (visited : (executeEach ⟨⟨root⟩, none⟩ visits).2 = session) :
    session.Holds Table.Regular := by
  have fresh : Session.Holds ⟨⟨root⟩, none⟩ Table.Regular := nofun
  have regular := fresh.regular_executeEach visits
  rwa [visited] at regular

theorem Session.regular_of_found {session : Session} {root : Path} {visits : List (String × Disk)}
    {database : Database} {table : Table} {name : String}
    (visited : (executeEach ⟨⟨root⟩, none⟩ visits).2 = session)
    (selected : session.current = some database) (found : database.table name = .ok table) :
    table.Regular :=
  regular_of_visited visited database selected table (Database.table_eq_ok found).1

end TextTables
