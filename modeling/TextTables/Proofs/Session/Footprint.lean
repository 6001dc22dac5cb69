import TextTables.Proofs.Session.Visits
import TextTables.Proofs.Store.Footprint

/-!
# The footprint of commands

Whatever is on the disk and however the session came to what it holds, a command touches the files
that its statement is about and the tables that it names, and nothing else, if it fails as if it
succeeds. The selected database has a proper name and its tables are named in lower case, so that
their files stand where the names say.
-/

namespace TextTables

open Disk Text Work

/-- The selected database and its tables are called as a statement can call them. -/
structure Session.Confined (session : Session) : Prop where
  named : ∀ database, session.current = some database → IsName database.name
  lower : session.Holds fun table => lowercase table.name = table.name

theorem Table.lasting_lower : Table.Lasting fun table => lowercase table.name = table.name where
  made spelled shaped := by
    obtain ⟨-, called, -⟩ := Sound.withColumns spelled.1 spelled.2 shaped
    rw [called]
    exact spelled.1.lower
  changed _ changes lower done := by
    rw [(name_of_change changes done).1]
    exact lower

namespace Store

variable {store : Store} {name : String} {disk after : Disk} {database : Database}

theorem lower_of_loadDatabase (done : store.loadDatabase name disk = .ok database after) :
    ∀ table ∈ database.tables, lowercase table.name = table.name := by
  obtain ⟨place, -, -, folded⟩ := loadDatabase_eq_ok done
  refine foldlM_preserves
    (fun database _ => ∀ table ∈ database.tables, lowercase table.name = table.name)
    (fun entry _ sofar disk next after lower step => ?_) (by simp [Database.empty]) folded
  rcases loadEntry_eq_ok step with ⟨rfl, -, -⟩ | ⟨stem, table, -, -, loaded, -, rfl⟩
  · exact lower
  · intro other member
    rcases Database.mem_place.mp member with rfl | old
    · obtain ⟨text, parsed, -, accepted, same⟩ := parse_of_loadTable loaded
      have called : other.name = lowercase stem := by
        rw [same]
        exact (Table.parse_eq_ok accepted).2.1
      rw [called]
      exact lowercase_lowercase stem
    · exact lower other old

theorem name_of_loadDatabase (done : store.loadDatabase name disk = .ok database after) :
    database.name = lowercase name := by
  obtain ⟨place, -, -, folded⟩ := loadDatabase_eq_ok done
  refine foldlM_preserves (fun database _ => database.name = lowercase name)
    (fun entry _ sofar disk next after called step => ?_) rfl folded
  rcases loadEntry_eq_ok step with ⟨rfl, -, -⟩ | ⟨stem, table, -, -, -, -, rfl⟩ <;> exact called

end Store

namespace Database

/-- The other tables, if the one of this name is left out. -/
def without (name : String) (database : Database) : Database :=
  { database with tables := database.tables.filter fun table => table.key != name }

theorem without_place (table : Table) (database : Database) :
    without table.key { database with tables := place table database.tables } =
      without table.key database := by
  have filtered : ∀ tables : List Table,
      (place table tables).filter (fun other => other.key != table.key) =
        tables.filter fun other => other.key != table.key := by
    intro tables
    induction tables with
    | nil => simp [place]
    | cons first rest inductionHypothesis =>
        unfold place
        split
        · exact List.filter_cons_of_neg (by simp)
        · rw [List.filter_cons, List.filter_cons, inductionHypothesis]
  unfold without
  rw [filtered]

theorem without_update (table : Table) (database : Database) :
    without table.key (database.update table) = without table.key database := by
  have filtered : ∀ tables : List Table,
      (tables.map fun other => if other.key = table.key then table else other).filter
          (fun other => other.key != table.key) =
        tables.filter fun other => other.key != table.key := by
    intro tables
    induction tables with
    | nil => rfl
    | cons first rest inductionHypothesis =>
        rw [List.map_cons, List.filter_cons, List.filter_cons, inductionHypothesis]
        split <;> simp_all
  unfold without update
  rw [filtered]

theorem without_without (name : String) (database : Database) :
    without name (without name database) = without name database := by
  unfold without
  simp [List.filter_filter]

end Database

/-- The places that the statement can change below the store. -/
def Statement.zone (top : Location) (current : Option Database) : Statement → Set Location
  | use name => counterZone top name
  | createDatabase name | dropDatabase name => zoneOf top name
  | select _ _ _ | join _ _ _ _ => ∅
  | createTable name _ | dropTable name | alter name _ _ | insert name _ | update name _ _
  | delete name _ => {place | ∃ database ∈ current, place ∈ tableZone top database.name name}

/-- What the statement leaves of the tables in memory, as the response tells. -/
def Statement.Leaves (response : Response) (before after : Option Database) : Statement → Prop
  | use _ => response ≠ .answered .done → after = before
  | createDatabase _ | select _ _ _ | join _ _ _ _ => after = before
  | dropDatabase name =>
      after = if response = .answered .done then
        before.filter fun database => database.name ≠ name else before
  | createTable name _ | dropTable name | alter name _ _ | insert name _ | update name _ _
  | delete name _ => after.map (Database.without name) = before.map (Database.without name)

/-- A statement that fails leaves all of memory. -/
theorem Statement.leaves_failed (statement : Statement) (current : Option Database)
    (activity : String) (error : Error) :
    statement.Leaves (.failed activity error) current current := by
  cases statement with
  | use => exact fun _ => rfl
  | dropDatabase => exact (if_neg nofun).symm
  | createDatabase | select | join => rfl
  | createTable | dropTable | alter | insert | update | delete => rfl

namespace Session

variable {session : Session} {command : String} {disk : Disk}

/-- The selected database keeps its name, or else the command has selected it. -/
theorem name_of_execute {database : Database}
    (selected : (session.execute command disk).2.1.current = some database) :
    (∃ before, session.current = some before ∧ before.name = database.name) ∨
      ∃ name after, Statement.parse command = .ok (.use name) ∧
        session.store.loadDatabase name disk = .ok database after := by
  cases selects_of_execute selected with
  | loaded reads done => exact .inr ⟨_, _, reads, done⟩
  | kept before | created _ before | removed _ before | changed _ _ before =>
      exact .inl ⟨_, before, rfl⟩

namespace Confined

theorem execute (confined : session.Confined) (command : String) (disk : Disk) :
    (session.execute command disk).2.1.Confined where
  named database selected := by
    rcases name_of_execute selected with ⟨before, earlier, same⟩ | ⟨name, after, reads, done⟩
    · rw [← same]
      exact confined.named before earlier
    · have named : IsName name := Statement.wellSpelled_of_parse reads
      rw [Store.name_of_loadDatabase done, named.lower]
      exact named
  lower := confined.lower.execute Table.lasting_lower
    fun _ _ _ _ done _ => Store.lower_of_loadDatabase done

theorem executeEach (confined : session.Confined) (visits : List (String × Disk)) :
    (session.executeEach visits).2.Confined :=
  executeEach_preserves Session.Confined
    (fun _ command disk confined => confined.execute command disk) confined visits

/-- A session that has selected nothing holds nothing. -/
theorem fresh (store : Store) : Session.Confined ⟨store, none⟩ :=
  ⟨nofun, nofun⟩

end Confined

theorem store_respond (session : Session) (statement : Statement)
    (outcome : EStateM.Result Error Workspace Answer) :
    (session.respond statement outcome).2.1.store = session.store := by
  cases outcome <;> rfl

theorem store_execute (session : Session) (command : String) (disk : Disk) :
    (session.execute command disk).2.1.store = session.store := by
  rcases execute_cases session command disk with ⟨error, -, same⟩ |
    ⟨statement, outcome, -, -, -, same⟩
  · rw [same]
  · rw [same]
    exact store_respond session statement outcome

theorem store_executeEach (session : Session) (visits : List (String × Disk)) :
    (session.executeEach visits).2.store = session.store :=
  executeEach_preserves (fun next => next.store = session.store)
    (fun next command disk same => (store_execute next command disk).trans same) rfl visits

section Concluded

variable {Result : Type} {statement : Statement} {taken : Result → Option Database}
  {outcome : EStateM.Result Error Disk Result}

theorem disk_conclude :
    (session.respond statement (conclude session.current taken outcome)).2.2 = left outcome := by
  cases outcome <;> rfl

/-- It is enough to know what was taken over. -/
theorem leaves_conclude
    (fine : ∀ result, statement.Leaves (.answered .done) session.current (taken result)) :
    statement.Leaves (session.respond statement (conclude session.current taken outcome)).1
      session.current
      (session.respond statement (conclude session.current taken outcome)).2.1.current := by
  cases outcome with
  | ok result after => exact fine result
  | error error after => exact statement.leaves_failed session.current statement.activity error

end Concluded

variable {statement : Statement} {outcome : EStateM.Result Error Workspace Answer}

theorem zone_eq_of_change? {name : String} {change : Table → Except SchemaError Table}
    (changes : statement.change? = some (name, change)) (top : Location)
    (current : Option Database) :
    statement.zone top current =
      {place | ∃ database ∈ current, place ∈ tableZone top database.name name} := by
  rcases Statement.change?_cases changes with ⟨alteration, column, rfl, -⟩ | ⟨values, rfl, -⟩ |
    ⟨assignments, condition, rfl, -⟩ | ⟨condition, rfl, -⟩ <;> rfl

theorem leaves_iff_of_change? {name : String} {change : Table → Except SchemaError Table}
    (changes : statement.change? = some (name, change)) (response : Response)
    (before after : Option Database) :
    statement.Leaves response before after ↔
      after.map (Database.without name) = before.map (Database.without name) := by
  rcases Statement.change?_cases changes with ⟨alteration, column, rfl, -⟩ | ⟨values, rfl, -⟩ |
    ⟨assignments, condition, rfl, -⟩ | ⟨condition, rfl, -⟩ <;> rfl

/-- A changed table is called as the statement calls it. -/
theorem Confined.name_of_changed (confined : session.Confined) (spelled : statement.WellSpelled)
    {name : String} {change : Table → Except SchemaError Table}
    (changes : statement.change? = some (name, change)) {database : Database}
    (selected : session.current = some database) {table changed : Table}
    (found : database.table name = .ok table) (done : change table = .ok changed) :
    changed.name = name := by
  obtain ⟨member, key⟩ := Database.table_eq_ok found
  rw [(Table.name_of_change changes done).1, ← confined.lower database selected table member]
  exact key.trans (Statement.isName_of_change? spelled changes).lower

/-- A statement changes nothing off its zone, wherever it stops. -/
theorem Confined.changes (confined : session.Confined) (tree : disk.IsTree)
    (spelled : statement.WellSpelled)
    (effect : Effect session.store ⟨session.current, disk⟩ statement outcome) :
    ChangesIn (statement.zone (disk.endOf session.store.root) session.current) disk
      (session.respond statement outcome).2.2 := by
  cases effect with
  | refused | queried | joined => exact .refl _ tree
  | used name =>
      rw [disk_conclude]
      exact (Store.loadDatabase_changes tree rfl spelled).1
  | made name =>
      rw [disk_conclude]
      exact Store.createDatabase_changes tree rfl spelled
  | dropped name =>
      rw [disk_conclude]
      exact Store.dropDatabase_changes tree rfl spelled
  | @created name columns database table selected shaped fresh =>
      obtain ⟨-, called, -⟩ := Table.Sound.withColumns spelled.1 spelled.2 shaped
      have named := confined.named database selected
      rw [disk_conclude]
      apply (Store.createTable_changes tree rfl named (called ▸ spelled.1)).weaken
      rw [called]
      exact fun place inside => ⟨database, selected, inside⟩
  | @removed name database table selected found =>
      rw [disk_conclude]
      apply (Store.deleteTable_changes tree rfl (confined.named database selected) spelled).weaken
      exact fun place inside => ⟨database, selected, inside⟩
  | @changed _ name change database table changed changes selected found done =>
      have named := Statement.isName_of_change? spelled changes
      have called := confined.name_of_changed spelled changes selected found done
      rw [disk_conclude, zone_eq_of_change? changes]
      apply (Store.saveTable_changes tree rfl (confined.named database selected)
        (called ▸ named)).weaken
      rw [called]
      exact fun place inside => ⟨database, selected, inside⟩

/-- Of the tables in memory a statement leaves those that it does not name. -/
theorem leaves (spelled : statement.WellSpelled)
    (effect : Effect session.store ⟨session.current, disk⟩ statement outcome) :
    statement.Leaves (session.respond statement outcome).1 session.current
      (session.respond statement outcome).2.1.current := by
  cases effect with
  | refused => exact statement.leaves_failed session.current statement.activity _
  | queried | joined => rfl
  | used name => exact leaves_conclude fun _ other => absurd rfl other
  | made name => exact leaves_conclude fun _ => rfl
  | dropped name => exact leaves_conclude fun _ => (if_pos rfl).symm
  | @created name columns database table selected shaped fresh =>
      obtain ⟨-, called, -⟩ := Table.Sound.withColumns spelled.1 spelled.2 shaped
      have key : table.key = name := by
        rw [Table.key, called, spelled.1.lower]
      apply leaves_conclude
      intro _
      obtain rfl := key
      simp [Statement.Leaves, show session.current = _ from selected, Database.without_place]
  | @removed name database table selected found =>
      have key : table.key = name := (Database.table_eq_ok found).2.trans spelled.lower
      apply leaves_conclude
      intro _
      obtain rfl := key
      exact (congrArg some (Database.without_without table.key database)).trans
        (congrArg (Option.map _) selected).symm
  | @changed _ name change database table changed changes selected found done =>
      have key : changed.key = name := by
        rw [Table.key, (Table.name_of_change changes done).1]
        exact (Database.table_eq_ok found).2.trans (Statement.isName_of_change? spelled changes).lower
      apply leaves_conclude
      intro _
      obtain rfl := key
      rw [leaves_iff_of_change? changes, show session.current = _ from selected]
      exact congrArg some (Database.without_update changed database)

/-- However the session came to what it holds, and on any tree of files, a command that is read
changes nothing off the zone of its statement and no table in memory that it does not name. -/
theorem execute_footprint {root : Path} {visits : List (String × Disk)} {session next : Session}
    (visited : (executeEach ⟨⟨root⟩, none⟩ visits).2 = session) {disk after : Disk}
    (tree : disk.IsTree) {command : String} {statement : Statement}
    (reads : Statement.parse command = .ok statement) {response : Response}
    (executed : session.execute command disk = (response, next, after)) :
    next.store = session.store ∧ after.home = disk.home ∧
      (∀ place ∉ statement.zone (disk.endOf root) session.current,
        after.node? place = disk.node? place) ∧
      statement.Leaves response session.current next.current ∧
      (∀ name, statement = .use name → WritesFiles disk after) ∧
      ∀ top database table other another, IsName table → IsName another →
        (database, table) ≠ (other, another) →
          Disjoint (tableZone top database table) (tableZone top other another) := by
  obtain rfl := visited
  have store := store_executeEach ⟨⟨root⟩, none⟩ visits
  have confined := (Confined.fresh ⟨root⟩).executeEach visits
  generalize (executeEach ⟨⟨root⟩, none⟩ visits).2 = session at *
  rcases execute_cases session command disk with ⟨error, failed, -⟩ |
    ⟨_, outcome, parsed, spelled, effect, same⟩
  · cases failed.symm.trans reads
  cases parsed.symm.trans reads
  have agree := (confined.changes tree spelled effect).agree
  have leaves := leaves spelled effect
  rw [store] at agree
  rw [executed] at same
  rw [← same] at agree leaves
  refine ⟨?_, agree.home, fun place => agree.node?, leaves, ?_, ?_⟩
  · exact (congrArg (·.2.1.store) same).trans (store_respond session statement outcome)
  · rintro name rfl
    cases effect with
    | refused =>
        cases same
        exact .refl disk
    | changed changes => cases changes
    | used =>
        rw [show after = left _ from (congrArg (·.2.2) same).trans disk_conclude]
        exact (Store.loadDatabase_changes tree rfl spelled).2
  · intro top database table other another named otherNamed different
    apply Set.disjoint_left.mpr
    intro place first second
    obtain ⟨sameDatabase, sameTable⟩ := tableZone_disjoint named otherNamed first second
    exact different (by rw [sameDatabase, sameTable])

/-- Dropping a table of the selected database leaves the files of the other one. -/
theorem execute_footprint_dropTable :
    let disk : Disk := ⟨[], [(["r"], .directory), (["r", "d"], .directory),
      (["r", "d", "s.tab"], .file "ID".toUTF8), (["r", "d", "s_config.tab"], .file "pk=0".toUTF8),
      (["r", "d", "t.tab"], .file "ID".toUTF8)]⟩
    let after : Disk := ⟨[], disk.entries.take 4⟩
    let session : Session := ⟨⟨⟨["r"]⟩⟩, some ⟨"d", [⟨"s", ["ID"], [], 0⟩, ⟨"t", ["ID"], [], 0⟩]⟩⟩
    let next : Session := ⟨⟨⟨["r"]⟩⟩, some ⟨"d", [⟨"s", ["ID"], [], 0⟩]⟩⟩
    (executeEach ⟨⟨⟨["r"]⟩⟩, none⟩ [("USE d;", disk)]).2 = session ∧ disk.IsTree ∧
      Statement.parse "DROP TABLE t;" = .ok (.dropTable "t") ∧
      session.execute "DROP TABLE t;" disk = (.answered .done, next, after) ∧
      ∀ place ∉ tableZone ["r"] "d" "t", after.node? place = disk.node? place := by
  intro disk after session next
  have visited : (executeEach ⟨⟨⟨["r"]⟩⟩, none⟩ [("USE d;", disk)]).2 = session := by
    decide +kernel
  have tree : disk.IsTree := isTree_of_entries (by decide +kernel)
  have reads : Statement.parse "DROP TABLE t;" = .ok (.dropTable "t") := by decide +kernel
  have executed : session.execute "DROP TABLE t;" disk = (.answered .done, next, after) := by
    decide +kernel
  refine ⟨visited, tree, reads, executed, fun place off => ?_⟩
  apply (execute_footprint visited tree reads executed).2.2.1
  rintro ⟨database, held, inside⟩
  cases held
  exact off inside

end Session

end TextTables
