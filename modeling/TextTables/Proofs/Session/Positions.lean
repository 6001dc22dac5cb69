import TextTables.Proofs.Session.Visits
import TextTables.Proofs.Table.Positions

/-!
# Commands that look at nothing out of range

The strict form of a session has no answer once a character, a cell or a column is looked up out of
range, or a literal is cut inside a character. Whatever is on the disk, and whoever changes it in
between, the strict session answers every command as the session does, as long as there is another
primary key for each row that is inserted.
-/

namespace TextTables

open Strict

/-- Work of a session that has no answer at all once an access is out of range. -/
def StrictM (Result : Type) : Type :=
  Workspace → Option (EStateM.Result Error Workspace Result)

namespace StrictM

instance : Monad StrictM where
  pure result := fun space => some (.ok result space)
  bind work next := fun space =>
    match work space with
    | some (.ok result after) => next result after
    | some (.error error after) => some (.error error after)
    | none => none

variable {First Second : Type}

/-- Work that looks up nothing by its position. -/
def plainly (work : SessionM First) : StrictM First := fun space =>
  some (work space)

def strictly (outcome : ExceptT Error Option First) : StrictM First := fun space =>
  outcome.run.map fun outcome => (ofExcept outcome : SessionM First) space

variable {strict : StrictM First} {plain : SessionM First} {strictNext : First → StrictM Second}
  {next : First → SessionM Second} {space : Workspace}

/-- Steps that have their answers have the answer of the whole sequence. -/
theorem bind_eq (first : strict space = some (plain space))
    (second : ∀ result after, plain space = .ok result after →
      strictNext result after = some (next result after)) :
    (strict >>= strictNext) space = some ((plain >>= next) space) := by
  change (match strict space with
    | some (.ok result after) => strictNext result after
    | some (.error error after) => some (.error error after)
    | none => none) = _
  rw [first]
  cases outcome : plain space with
  | ok result after =>
      rw [Work.bind_ok outcome]
      exact second result after outcome
  | error error after => rw [Work.bind_error outcome]

/-- A check comes before anything is changed. -/
theorem check_eq {outcome : Except Error First}
    (rest : ∀ result, outcome = .ok result → strictNext result space = some (next result space)) :
    (plainly (ofExcept outcome) >>= strictNext) space =
      some ((ofExcept outcome >>= next) space) := by
  refine bind_eq rfl fun result after done => ?_
  cases outcome with
  | error error => cases done
  | ok found =>
      cases done
      exact rest result rfl

theorem strictly_eq {outcome : ExceptT Error Option First} {plain : Except Error First}
    (answered : outcome.run = some plain) :
    strictly outcome space = some ((ofExcept plain : SessionM First) space) := by
  rw [strictly, answered, Option.map_some]

end StrictM

namespace Session

open SessionM (onDisk selected)
open StrictM (plainly strictly)

def changeTable? (store : Store) (name : String)
    (change : Table → ExceptT SchemaError Option Table) : StrictM Unit := do
  let database ← plainly selected
  let table ← plainly (ofExcept (database.table name))
  let changed ← strictly ((change table).adapt .schema)
  plainly (onDisk (store.saveTable database.name changed))
  plainly (SessionM.select (database.update changed))

def query? (name : String) (columns : Selection) (condition : Option Condition) :
    StrictM ResultSet := do
  let database ← plainly selected
  let table ← plainly (ofExcept (database.table name))
  let names := match columns with
    | .all => none
    | .only names => some names
  strictly ((table.select? names condition).adapt .schema)

/-- Carries out a statement, and looks at cells, columns and literals by their positions. -/
def perform? (store : Store) : Statement → StrictM Answer
  | .alter name .drop column => do
      plainly (ofExcept (checkName name))
      changeTable? store name fun table => table.dropColumn? column
      return .done
  | .insert name values => do
      plainly (ofExcept (checkName name))
      changeTable? store name fun table => do
        table.insert? (← access (values.mapM Literal.text?))
      return .done
  | .update name assignments condition => do
      plainly (ofExcept (checkName name))
      changeTable? store name fun table => table.update? assignments condition
      return .done
  | .delete name condition => do
      plainly (ofExcept (checkName name))
      changeTable? store name fun table => table.delete? condition
      return .done
  | .select columns name condition => do
      plainly (ofExcept (checkName name))
      return .table (← query? name columns condition)
  | .join first second firstAttribute secondAttribute => do
      plainly (ofExcept (checkName first))
      plainly (ofExcept (checkName second))
      let database ← plainly selected
      return .table (← strictly (database.join? first second [firstAttribute, secondAttribute]))
  | statement => plainly (perform store statement)

/-- Cuts a command into tokens, each of which could be a literal, and runs it. -/
def execute? (session : Session) (command : String) (disk : Disk) :
    Option (Response × Session × Disk) := do
  let tokens ← Token.scan? command
  let _ ← tokens.mapM Literal.ofValue?
  match Statement.parse command with
  | .error error => return (.failed "Invalid query" error, session, disk)
  | .ok statement =>
      let outcome ← perform? session.store statement ⟨session.current, disk⟩
      return session.respond statement outcome

def executeEach? (session : Session) :
    List (String × Disk) → Option (List (Response × Disk) × Session)
  | [] => some ([], session)
  | (command, disk) :: visits => do
      let (response, next, after) ← session.execute? command disk
      let (others, last) ← next.executeEach? visits
      return ((response, after) :: others, last)

/-- The command inserts into a table that has given out the last key of 64 bits. -/
def Exhausts (session : Session) (command : String) : Prop :=
  match Statement.parse command, session.current with
  | .ok (.insert name _), some database =>
      (database.find? name).map Table.lastKey = some (UInt64.size - 1)
  | _, _ => False

instance (session : Session) (command : String) : Decidable (session.Exhausts command) := by
  unfold Exhausts
  split <;> infer_instance

/-- No command of the visits inserts into a table that has no other key. -/
def Spares (session : Session) : List (String × Disk) → Prop
  | [] => True
  | (command, disk) :: visits =>
      ¬ session.Exhausts command ∧ (session.execute command disk).2.1.Spares visits

instance decidableSpares (session : Session) (visits : List (String × Disk)) :
    Decidable (session.Spares visits) :=
  match visits with
  | [] => isTrue trivial
  | (command, disk) :: visits =>
      have := decidableSpares (session.execute command disk).2.1 visits
      inferInstanceAs (Decidable (_ ∧ _))

variable {store : Store} {space : Workspace} {statement : Statement} {session : Session}
  {command : String} {disk : Disk}

theorem selection_eq {Result : Type} {strictNext : Database → StrictM Result}
    {next : Database → SessionM Result}
    (rest : ∀ database, space.current = some database →
      strictNext database space = some (next database space)) :
    (plainly selected >>= strictNext) space = some ((selected >>= next) space) := by
  refine StrictM.bind_eq rfl fun database after done => ?_
  obtain ⟨current, disk⟩ := space
  cases current with
  | none => cases done
  | some found =>
      cases done
      exact rest database rfl

theorem adapt_eq {Result : Type} {strict : ExceptT SchemaError Option Result}
    {plain : Except SchemaError Result} (answered : strict.run = some plain) :
    (strict.adapt Error.schema).run = some (plain.mapError .schema) := by
  change Option.map (Except.mapError Error.schema) strict.run = _
  rw [answered, Option.map_some]

theorem changeTable?_eq {name : String} {strict : Table → ExceptT SchemaError Option Table}
    {change : Table → Except SchemaError Table}
    (agrees : ∀ database table, space.current = some database → database.table name = .ok table →
      (strict table).run = some (change table)) :
    changeTable? store name strict space = some (changeTable store name change space) := by
  refine selection_eq fun database selected => StrictM.check_eq fun table found => ?_
  refine StrictM.bind_eq (StrictM.strictly_eq (adapt_eq (agrees database table selected found)))
    fun changed after _ => ?_
  exact StrictM.bind_eq rfl fun _ _ _ => rfl

/-- A change of a table comes behind a check of its name, and is answered in one way. -/
theorem checked_eq {name : String} {strict : StrictM Unit} {plain : SessionM Unit}
    (agrees : strict space = some (plain space)) :
    (do plainly (ofExcept (checkName name)); strict; return Answer.done : StrictM Answer) space =
      some ((do ofExcept (checkName name); plain; return Answer.done : SessionM Answer) space) :=
  StrictM.check_eq fun _ _ => StrictM.bind_eq agrees fun _ _ _ => rfl

/-- Where all tables are regular, a statement looks at nothing out of range. -/
theorem perform?_eq
    (regular : ∀ database, space.current = some database → ∀ table ∈ database.tables, table.Regular)
    (quoted : statement.WellQuoted)
    (spare : ∀ name values database table, statement = .insert name values →
      space.current = some database → database.table name = .ok table →
        table.lastKey ≠ UInt64.size - 1) :
    perform? store statement space = some (perform store statement space) := by
  have found : ∀ {name : String} {database : Database} {table : Table},
      space.current = some database → database.table name = .ok table → table.Regular :=
    fun selected present => regular _ selected _ (Database.table_eq_ok present).1
  cases statement with
  | use name => rfl
  | createDatabase name => rfl
  | createTable name columns => rfl
  | dropDatabase name => rfl
  | dropTable name => rfl
  | alter name alteration column =>
      cases alteration with
      | add => rfl
      | drop =>
          refine checked_eq (changeTable?_eq fun database table selected present => ?_)
          exact Table.dropColumn?_eq (found selected present) column
  | insert name values =>
      refine checked_eq (changeTable?_eq fun database table selected present => ?_)
      have texts : values.mapM Literal.text? = some (values.map Literal.text) :=
        mapM_eq_some fun value member => Literal.text?_eq (quoted value member)
      rw [run_access_bind texts]
      exact Table.insert?_eq (spare name values database table rfl selected present) _
  | update name assignments condition =>
      refine checked_eq (changeTable?_eq fun database table selected present => ?_)
      exact Table.update?_eq (found selected present) quoted.1 quoted.2
  | delete name condition =>
      refine checked_eq (changeTable?_eq fun database table selected present => ?_)
      exact Table.delete?_eq (found selected present) quoted
  | select columns name condition =>
      refine StrictM.check_eq fun _ _ => StrictM.bind_eq ?_ fun _ _ _ => rfl
      refine selection_eq fun database selected => StrictM.check_eq fun table present => ?_
      exact StrictM.strictly_eq (adapt_eq (Table.select?_eq (found selected present) _ quoted))
  | join first second firstAttribute secondAttribute =>
      refine StrictM.check_eq fun _ _ => StrictM.check_eq fun _ _ => ?_
      refine selection_eq fun database selected => ?_
      exact StrictM.bind_eq (StrictM.strictly_eq
        (Database.join?_eq (regular database selected) _ _ _)) fun _ _ _ => rfl

theorem execute?_eq (regular : session.Holds Table.Regular) (spare : ¬ session.Exhausts command) :
    session.execute? command disk = some (session.execute command disk) := by
  have tokens : (Token.scan command).mapM Literal.ofValue? =
      some ((Token.scan command).map Literal.ofValue) :=
    mapM_eq_some fun token _ => Literal.ofValue?_eq token
  unfold execute?
  rw [Token.scan?_eq]
  simp only [Option.bind_eq_bind, Option.bind_some, tokens]
  cases reads : Statement.parse command with
  | error error => simp only [execute, reads]; rfl
  | ok statement =>
      have further : ∀ name values database table, statement = .insert name values →
          session.current = some database → database.table name = .ok table →
            table.lastKey ≠ UInt64.size - 1 := by
        rintro name values database table rfl selected present last
        apply spare
        simp [Exhausts, reads, selected, Database.find?_of_table present, last]
      have outcome : perform? session.store statement ⟨session.current, disk⟩ = some _ :=
        perform?_eq regular (Statement.wellQuoted_of_parse reads) further
      simp only [outcome, execute, reads]
      cases perform session.store statement ⟨session.current, disk⟩ <;> rfl

/-- A disk with one file of a table, which no command has made. -/
def foundDisk : Disk :=
  ⟨[], [(["r"], .directory), (["r", "d"], .directory),
    (["r", "d", "t.tab"], .file "name\tmark\n1\tä\n2\tb".toUTF8)]⟩

/-- A table that was found is changed and asked for, while its files are lost and come back. -/
def foundVisits : List (String × Disk) :=
  [("USE d;", foundDisk), ("SELECT mark FROM t WHERE name >= 1 AND mark != 'b';", Disk.empty),
    ("JOIN t AND t ON mark AND mark;", Disk.empty),
    ("UPDATE t SET mark = '' WHERE name == 2;", foundDisk),
    ("INSERT INTO t VALUES ('c');", Disk.empty), ("ALTER TABLE t DROP name;", foundDisk)]

end Session

end TextTables
