import TextTables.Proofs.Session.Events
import TextTables.Proofs.Session.Insertions
import TextTables.Proofs.Store.Reopening

/-!
# Primary keys over the life of a table

From when a table is made until it is dropped, its last primary key is the number of rows that were
inserted into it. This holds in memory as on the disk, so that no key is given out twice, however
rows are deleted and databases are read again.
-/

namespace TextTables

open Location Work Text

namespace Life

variable {root : Path} {top : Location} {life : Life} {statement : Statement} {after : Disk}

/-- The disk stores the table, and memory holds it if its database is selected. -/
structure Upholds (root : Path) (top : Location) (disk : Disk) (current : Option Database)
    (database : String) (table : Table) : Prop where
  stored : disk.Stores (root.join database) (top ++ [database]) table
  held : ∀ selected, current = some selected → selected.name = database → table ∈ selected.tables

/-- What comes behind the outcome of a statement. -/
def behind (root : Path) (life : Life) (statement : Statement)
    (outcome : EStateM.Result Error Workspace Answer) : Life :=
  let (response, session, disk) := life.session.respond statement outcome
  ⟨session, disk, life.tally.note (disk.endOf root) disk statement response⟩

/-- The tally tells the truth, and every table that it counts is upheld. -/
structure Counted (root : Path) (top : Location) (life : Life) : Prop where
  store : life.session.store = ⟨root⟩
  orderly : life.disk.Orderly root top
  wellNamed : ∀ database, life.session.current = some database → database.WellNamed
  selected : life.tally.selected = life.session.current.map Database.name
  counts : ∀ database name count, life.tally.given database name = some count →
    ∃ table, table.name = name ∧ table.lastKey = count ∧
      Upholds root top life.disk life.session.current database table

namespace Counted

/-- A failed statement leaves memory as it was, and the tables if they are still stored. -/
theorem failed (counted : life.Counted root top) {error : Error} (orderly : after.Orderly root top)
    (kept : ∀ database table, Upholds root top life.disk life.session.current database table →
      (statement = .dropDatabase database →
        after.node? (top ++ [database] ++ [table.name ++ tableEnding]) ≠ none ∧
          after.node? (top ++ [database] ++ [table.name ++ counterEnding]) ≠ none) →
      after.Stores (root.join database) (top ++ [database]) table) :
    (life.behind root statement (.error error ⟨life.session.current, after⟩)).Counted root top := by
  have noted : (life.behind root statement (.error error ⟨life.session.current, after⟩)) =
      ⟨life.session, after, life.tally.note top after statement
        (.failed statement.activity error)⟩ := by
    rw [← orderly.ends]
    rfl
  obtain ⟨same, still⟩ := life.tally.note_failed statement
  rw [noted]
  refine ⟨counted.store, orderly, counted.wellNamed, same.trans counted.selected, ?_⟩
  intro database name count given
  obtain ⟨before, stand⟩ := still database name count given
  obtain ⟨table, rfl, key, upheld⟩ := counted.counts database name count before
  exact ⟨table, rfl, key, kept database table upheld stand, upheld.held⟩

/-- A statement that leaves memory alone and puts things where nothing stood keeps all tables. -/
theorem grown (counted : life.Counted root top) (grown : Disk.Grown root top life.disk after)
    {tally : Tally} (same : tally = life.tally) :
    (⟨life.session, after, tally⟩ : Life).Counted root top := by
  subst same
  refine ⟨counted.store, grown.orderly, counted.wellNamed, counted.selected, ?_⟩
  intro database name count given
  obtain ⟨table, named, key, upheld⟩ := counted.counts database name count given
  exact ⟨table, named, key, upheld.stored.grown grown, upheld.held⟩

theorem used (counted : life.Counted root top) {name : String} (named : IsName name) :
    (life.behind root (.use name) (Session.conclude life.session.current some
      (life.session.store.loadDatabase name life.disk))).Counted root top := by
  have orderly : life.disk.Orderly life.session.store.root top := by
    rw [counted.store]
    exact counted.orderly
  have grown := Store.loadDatabase_grown orderly named
  cases loaded : life.session.store.loadDatabase name life.disk with
  | error error after =>
      rw [loaded, counted.store] at grown
      exact counted.failed grown.orderly fun _ _ upheld _ => upheld.stored.grown grown
  | ok final after =>
      rw [loaded, counted.store] at grown
      obtain ⟨wellNamed, called⟩ := Store.wellNamed_of_loadDatabase orderly named loaded
      refine ⟨counted.store, grown.orderly, ?_, congrArg some called.symm, ?_⟩
      · rintro database ⟨⟩
        exact wellNamed
      · intro database table count given
        obtain ⟨kept, tableNamed, key, upheld⟩ := counted.counts database table count given
        refine ⟨kept, tableNamed, key, upheld.stored.grown grown, ?_⟩
        rintro selected ⟨⟩ same
        rw [called] at same
        subst same
        have stored :
            life.disk.Stores (life.session.store.directory name) (top ++ [name]) kept := by
          rw [counted.store]
          exact upheld.stored
        exact Store.mem_of_loadDatabase orderly named stored.offers loaded

theorem made (counted : life.Counted root top) {name : String} (named : IsName name) :
    (life.behind root (.createDatabase name) (Session.conclude life.session.current
      (fun _ => life.session.current)
      (life.session.store.createDatabase name life.disk))).Counted root top := by
  have grown : Disk.Grown root top life.disk
      (left (life.session.store.createDatabase name life.disk)) := by
    rw [counted.store]
    exact Store.createDatabase_grown counted.orderly named
  cases outcome : life.session.store.createDatabase name life.disk with
  | error error after =>
      rw [outcome] at grown
      exact counted.failed grown.orderly fun _ _ upheld _ => upheld.stored.grown grown
  | ok result after =>
      rw [outcome] at grown
      exact counted.grown grown rfl

theorem dropped (counted : life.Counted root top) {name : String} (named : IsName name) :
    (life.behind root (.dropDatabase name) (Session.conclude life.session.current
      (fun _ => life.session.current.filter fun database => database.name ≠ name)
      (life.session.store.dropDatabase name life.disk))).Counted root top := by
  have cut : Disk.Cut root top name life.disk
      (left (life.session.store.dropDatabase name life.disk)) := by
    rw [counted.store]
    exact Store.dropDatabase_cut counted.orderly named
  cases outcome : life.session.store.dropDatabase name life.disk with
  | error error after =>
      rw [outcome] at cut
      refine counted.failed cut.orderly fun database table upheld stand => ?_
      by_cases same : database = name
      · subst same
        exact upheld.stored.cut cut (stand rfl).1 (stand rfl).2
      · exact upheld.stored.cut_other cut same
  | ok result after =>
      rw [outcome] at cut
      refine ⟨counted.store, cut.orderly, ?_, ?_, ?_⟩
      · intro database selected
        exact counted.wellNamed database (Option.filter_eq_some_iff.mp selected).1
      · have selected := counted.selected
        change life.tally.selected.filter _ = _
        rw [selected, Option.filter_map]
        rfl
      · intro database table count given
        by_cases same : database = name
        · subst same
          have gone : (Function.update life.tally.given database fun _ => none) database table =
            some count := given
          rw [Function.update_self] at gone
          cases gone
        · have before : (Function.update life.tally.given name fun _ => none) database table =
            some count := given
          rw [Function.update_of_ne same] at before
          obtain ⟨kept, tableNamed, key, upheld⟩ := counted.counts database table count before
          refine ⟨kept, tableNamed, key, upheld.stored.cut_other cut same, ?_⟩
          intro current selected
          exact upheld.held current (Option.filter_eq_some_iff.mp selected).1

/-- In a database that is selected, a table that is upheld is the one of its key. -/
theorem eq_of_key (counted : life.Counted root top) {database : Database} {table kept : Table}
    (selected : life.session.current = some database) (member : table ∈ database.tables)
    (upheld : Upholds root top life.disk life.session.current database.name kept)
    (same : kept.key = table.key) : kept = table :=
  (counted.wellNamed database selected).sorted.eq_of_key (upheld.held database selected rfl) member
    same

theorem selected_eq (counted : life.Counted root top) {database : Database}
    (selected : life.session.current = some database) :
    life.tally.selected = some database.name := by
  rw [counted.selected, selected]
  rfl

/-- Work on the files of a table that fails harms no table if it left the one of this name alone. -/
theorem stopped (counted : life.Counted root top) {name : String} {database : Database}
    {error : Error} (named : IsName name)
    (worked : Disk.WorkedOn root top database.name name life.disk after)
    (unchanged : ∀ table,
      Upholds root top life.disk life.session.current database.name table →
        table.name = name → after = life.disk) :
    (life.behind root statement (.error error ⟨life.session.current, after⟩)).Counted root top := by
  refine counted.failed worked.orderly fun other table upheld _ => ?_
  by_cases here : other = database.name ∧ table.name = name
  · obtain ⟨rfl, called⟩ := here
    rw [unchanged table upheld called]
    exact upheld.stored
  · exact upheld.stored.worked named worked fun same called => here ⟨same, called⟩

theorem created (counted : life.Counted root top) {name : String} {columns : List String}
    {database : Database} {table : Table}
    (spelled : (Statement.createTable name columns).WellSpelled)
    (selected : life.session.current = some database)
    (shaped : Table.withColumns name columns = .ok table)
    (fresh : ∀ other ∈ database.tables, other.key ≠ table.key) :
    (life.behind root (.createTable name columns) (Session.conclude life.session.current
      (fun _ => some { database with tables := Database.place table database.tables })
      (life.session.store.createTable database.name table life.disk))).Counted root top := by
  have wellNamed := counted.wellNamed database selected
  obtain ⟨sound, rfl, unused⟩ := Table.Sound.withColumns spelled.1 spelled.2 shaped
  have worked : Disk.WorkedOn root top database.name table.name life.disk
      (left (life.session.store.createTable database.name table life.disk)) := by
    rw [counted.store]
    exact Store.createTable_workedOn counted.orderly wellNamed.named sound.named
  -- A table that is upheld under the name would be in memory, where the name is free.
  have apart : ∀ other kept, Upholds root top life.disk life.session.current other kept →
      other = database.name → kept.name ≠ table.name := by
    rintro other kept upheld rfl same
    refine fresh kept (upheld.held database selected rfl) ?_
    rw [upheld.stored.sound.key, sound.key, same]
  cases outcome : life.session.store.createTable database.name table life.disk with
  | error error after =>
      rw [outcome] at worked
      exact counted.stopped sound.named worked fun kept upheld same =>
        absurd same (apart _ kept upheld rfl)
  | ok result after =>
      rw [outcome] at worked
      have chosen := counted.selected_eq selected
      refine ⟨counted.store, worked.orderly, ?_, ?_, ?_⟩
      · rintro _ ⟨⟩
        exact wellNamed.place sound.named fresh
      · exact Tally.selected_recount.trans chosen
      · intro other name count given
        have counts : (life.tally.recount table.name fun _ => some 0).given other name =
          some count := given
        rw [Tally.given_recount chosen] at counts
        split at counts <;> rename_i here
        · obtain ⟨rfl, rfl⟩ := here
          cases counts
          refine ⟨table, rfl, unused, ?_, ?_⟩
          · rw [counted.store] at outcome
            exact Store.createTable_stores counted.orderly wellNamed.named sound outcome
          · rintro _ ⟨⟩ -
            exact Database.mem_place.mpr (.inl rfl)
        · obtain ⟨kept, rfl, key, upheld⟩ := counted.counts other name count counts
          refine ⟨kept, rfl, key, ?_, ?_⟩
          · exact upheld.stored.worked sound.named worked (apart other kept upheld)
          · rintro _ ⟨⟩ same
            exact Database.mem_place.mpr (.inr (upheld.held database selected same))

theorem removed (counted : life.Counted root top) {name : String} {database : Database}
    {table : Table} (named : IsName name) (selected : life.session.current = some database)
    (found : database.table name = .ok table) :
    (life.behind root (.dropTable name) (Session.conclude life.session.current
      (fun _ => some { database with
        tables := database.tables.filter fun other => other.key != table.key })
      (life.session.store.deleteTable database.name name life.disk))).Counted root top := by
  have wellNamed := counted.wellNamed database selected
  obtain ⟨member, key⟩ := Database.table_eq_ok found
  rw [named.lower] at key
  have worked : Disk.WorkedOn root top database.name name life.disk
      (left (life.session.store.deleteTable database.name name life.disk)) := by
    rw [counted.store]
    exact Store.deleteTable_workedOn counted.orderly wellNamed.named named
  cases outcome : life.session.store.deleteTable database.name name life.disk with
  | error error after =>
      rw [outcome] at worked
      refine counted.stopped named worked fun kept upheld same => ?_
      rw [counted.store, ← same] at outcome
      exact Store.deleteTable_unchanged counted.orderly wellNamed.named upheld.stored outcome
  | ok result after =>
      rw [outcome] at worked
      have chosen := counted.selected_eq selected
      refine ⟨counted.store, worked.orderly, ?_, ?_, ?_⟩
      · rintro _ ⟨⟩
        exact wellNamed.filter _
      · exact Tally.selected_recount.trans chosen
      · intro other called count given
        have counts : (life.tally.recount name fun _ => none).given other called = some count :=
          given
        rw [Tally.given_recount chosen] at counts
        split at counts <;> rename_i here
        · cases counts
        · obtain ⟨kept, rfl, keys, upheld⟩ := counted.counts other called count counts
          have apart : other = database.name → kept.name ≠ name :=
            fun same called => here ⟨same, called⟩
          refine ⟨kept, rfl, keys, upheld.stored.worked named worked apart, ?_⟩
          rintro _ ⟨⟩ same
          refine List.mem_filter.mpr ⟨upheld.held database selected same, ?_⟩
          rw [upheld.stored.sound.key, key]
          exact bne_iff_ne.mpr (apart same.symm)

theorem changed (counted : life.Counted root top) {name : String} {database : Database}
    {table changed : Table} {change : Table → Except SchemaError Table}
    (spelled : statement.WellSpelled) (changes : statement.change? = some (name, change))
    (selected : life.session.current = some database) (found : database.table name = .ok table)
    (done : change table = .ok changed) :
    (life.behind root statement (Session.conclude life.session.current
      (fun _ => some (database.update changed))
      (life.session.store.saveTable database.name changed life.disk))).Counted root top := by
  have wellNamed := counted.wellNamed database selected
  have named := Statement.isName_of_change? spelled changes
  obtain ⟨member, key⟩ := Database.table_eq_ok found
  obtain ⟨same, raised⟩ := Table.name_of_change changes done
  have called : table.name = name := by
    rw [← (wellNamed.tables table member).lower, ← named.lower]
    exact key
  rw [called] at same
  subst same
  have keys : table.key = changed.key := by rw [Table.key, Table.key, called]
  have worked : Disk.WorkedOn root top database.name changed.name life.disk
      (left (life.session.store.saveTable database.name changed life.disk)) := by
    rw [counted.store]
    exact Store.saveTable_workedOn counted.orderly wellNamed.named named
  cases outcome : life.session.store.saveTable database.name changed life.disk with
  | error error after =>
      rw [outcome] at worked
      refine counted.stopped named worked fun kept upheld same => ?_
      rw [counted.store] at outcome
      exact Store.saveTable_unchanged counted.orderly wellNamed.named upheld.stored same.symm
        outcome
  | ok result after =>
      rw [outcome] at worked
      have chosen := counted.selected_eq selected
      obtain ⟨stays, recounted⟩ := Tally.answered_change changes chosen
      have present : ∃ old ∈ database.tables, old.key = changed.key := ⟨table, member, keys⟩
      refine ⟨counted.store, worked.orderly, ?_, ?_, ?_⟩
      · rintro _ ⟨⟩
        exact wellNamed.update named present
      · exact stays.trans chosen
      · intro other name count given
        have counts : (life.tally.answered statement).given other name = some count := given
        rw [recounted] at counts
        split at counts <;> rename_i here
        · obtain ⟨rfl, rfl⟩ := here
          obtain ⟨before, old, rfl⟩ := Option.map_eq_some_iff.mp counts
          obtain ⟨kept, keptNamed, rfl, upheld⟩ := counted.counts _ _ _ old
          obtain rfl := counted.eq_of_key selected member upheld (by
            rw [keys, Table.key, Table.key, keptNamed])
          have sound := upheld.stored.sound.of_change spelled changes done
          refine ⟨changed, rfl, raised, ?_, ?_⟩
          · rw [counted.store] at outcome
            exact Store.saveTable_stores counted.orderly wellNamed.named sound outcome
          · rintro _ ⟨⟩ -
            exact (Database.mem_update present).mpr (.inl rfl)
        · obtain ⟨kept, rfl, keyed, upheld⟩ := counted.counts other name count counts
          have apart : other = database.name → kept.name ≠ changed.name :=
            fun same called => here ⟨same, called⟩
          refine ⟨kept, rfl, keyed, upheld.stored.worked named worked apart, ?_⟩
          rintro _ ⟨⟩ same
          refine (Database.mem_update present).mpr (.inr ⟨upheld.held database selected same, ?_⟩)
          rw [upheld.stored.sound.key, Table.key, named.lower]
          exact apart same.symm

/-- Whatever a statement comes to, the tally goes on telling the truth. -/
theorem effect (counted : life.Counted root top) (spelled : statement.WellSpelled)
    {outcome : EStateM.Result Error Workspace Answer}
    (effect : Session.Effect life.session.store ⟨life.session.current, life.disk⟩ statement
      outcome) : (life.behind root statement outcome).Counted root top := by
  cases effect with
  | refused statement error =>
      exact counted.failed counted.orderly fun _ _ upheld _ => upheld.stored
  | queried => exact counted.grown (.refl counted.orderly) rfl
  | joined => exact counted.grown (.refl counted.orderly) rfl
  | used => exact counted.used spelled
  | made => exact counted.made spelled
  | dropped => exact counted.dropped spelled
  | created selected shaped fresh => exact counted.created spelled selected shaped fresh
  | removed selected found => exact counted.removed spelled selected found
  | changed changes selected found done => exact counted.changed spelled changes selected found done

theorem command (counted : life.Counted root top) (text : String) :
    (life.step root (.command text)).Counted root top := by
  rcases Session.execute_cases life.session text life.disk with ⟨error, reads, same⟩ |
    ⟨statement, outcome, reads, spelled, effect, same⟩
  · simp only [step, same, reads]
    exact counted
  · simp only [step, same, reads]
    exact counted.effect spelled effect

theorem restart (counted : life.Counted root top)
    (slashFree : ∀ segment ∈ root.segments, '/' ∉ segment.toList) :
    (life.step root .restart).Counted root top := by
  have grown := Session.openAt_grown counted.orderly slashFree
  unfold step
  cases outcome : Session.openAt root life.disk with
  | error error after =>
      rw [outcome] at grown
      exact counted.grown grown rfl
  | ok session after =>
      rw [outcome] at grown
      obtain ⟨store, fresh⟩ := Session.eq_of_openAt outcome
      refine ⟨store, grown.orderly, ?_, ?_, ?_⟩
      · intro database selected
        cases fresh.symm.trans selected
      · rw [fresh]
        rfl
      · intro database name count given
        obtain ⟨table, named, key, upheld⟩ := counted.counts database name count given
        refine ⟨table, named, key, upheld.stored.grown grown, fun current selected => ?_⟩
        cases fresh.symm.trans selected

theorem play (counted : life.Counted root top)
    (slashFree : ∀ segment ∈ root.segments, '/' ∉ segment.toList) (events : List Event) :
    (life.play root events).Counted root top := by
  induction events generalizing life with
  | nil => exact counted
  | cons event rest inductionHypothesis =>
      apply inductionHypothesis
      cases event with
      | command text => exact counted.command text
      | restart => exact counted.restart slashFree

/-- An answered insertion appends a row under the next key, and one that fails leaves all tables as
they are. -/
theorem insertion (counted : life.Counted root top) {database : Database} {table : Table}
    {text : String} {values : List Literal} (selected : life.session.current = some database)
    (upheld : Upholds root top life.disk life.session.current database.name table)
    (reads : Statement.parse text = .ok (.insert table.name values)) :
    match life.session.execute text life.disk with
    | (.answered _, next, _) => next.current = some (database.update
        { table with
          rows := table.rows ++ [toString (table.lastKey + 1) :: values.map Literal.text]
          lastKey := table.lastKey + 1 })
    | (.failed _ _, next, _) => next = life.session := by
  have effect := Session.execute_insertion selected reads life.disk
  generalize life.session.execute text life.disk = outcome at effect ⊢
  obtain ⟨response, next, after⟩ := outcome
  cases response with
  | answered answer =>
      obtain ⟨found, inserted, present, done, now⟩ := effect
      obtain ⟨member, key⟩ := Database.table_eq_ok present
      obtain rfl := counted.eq_of_key selected member upheld key.symm
      obtain ⟨-, rfl⟩ := Table.insert_eq_ok done
      exact now
  | failed activity error => exact effect

theorem start {disk begin : Disk} {session : Session} (bare : disk.IsBare root)
    (slashFree : ∀ segment ∈ root.segments, '/' ∉ segment.toList)
    (opened : Session.openAt root disk = .ok session begin) :
    Counted root (disk.endOf root) ⟨session, begin, .start⟩ := by
  have grown := Session.openAt_grown bare.orderly slashFree
  rw [opened] at grown
  obtain ⟨store, fresh⟩ := Session.eq_of_openAt opened
  refine ⟨store, grown.orderly, ?_, ?_, nofun⟩
  · intro database selected
    cases fresh.symm.trans selected
  · rw [fresh]
    rfl

theorem of_openAt {path : String} {disk begin : Disk} {session : Session}
    (bare : disk.IsBare (.ofText path))
    (opened : Session.openAt (.ofText path) disk = .ok session begin) (events : List Event) :
    Counted (.ofText path) (disk.endOf (.ofText path))
      (Life.play (.ofText path) ⟨session, begin, .start⟩ events) :=
  (start bare (Path.slashFree_ofText path) opened).play (Path.slashFree_ofText path) events

end Counted

/-- Until it or its database is dropped, a table has given out as many keys as rows were inserted
into it. The next row that is inserted takes the next key, and an insertion that fails takes
none. -/
theorem lastKey_eq_given {path : String} {disk begin : Disk} {session : Session}
    (bare : disk.IsBare (.ofText path))
    (opened : Session.openAt (.ofText path) disk = .ok session begin) (events : List Event) :
    let root := Path.ofText path
    let life := Life.play root ⟨session, begin, .start⟩ events
    life.tally.selected = life.session.current.map Database.name ∧
      ∀ database name count, life.tally.given database name = some count →
        ∃ table : Table, table.name = name ∧ table.lastKey = count ∧ table.Numbered ∧
          life.disk.Stores (root.join database) (disk.endOf root ++ [database]) table ∧
          ∀ current, life.session.current = some current → current.name = database →
            table ∈ current.tables ∧
            ∀ command values, Statement.parse command = .ok (.insert name values) →
              match life.session.execute command life.disk with
              | (.answered _, next, _) => next.current = some (current.update
                  { table with
                    rows := table.rows ++ [toString (count + 1) :: values.map Literal.text]
                    lastKey := count + 1 })
              | (.failed _ _, next, _) => next = life.session := by
  intro root life
  have counted : life.Counted root (disk.endOf root) := .of_openAt bare opened events
  refine ⟨counted.selected, fun database name count given => ?_⟩
  obtain ⟨table, rfl, rfl, upheld⟩ := counted.counts database name count given
  refine ⟨table, rfl, rfl, upheld.stored.sound.numbered, upheld.stored, ?_⟩
  rintro current selected rfl
  exact ⟨upheld.held current selected rfl,
    fun command values reads => counted.insertion selected upheld reads⟩

/-- Two rows are inserted, the second one is deleted, and the database is read again. -/
def deletion : List Event :=
  [.command "CREATE DATABASE d;", .command "USE d;", .command "CREATE TABLE t (a);",
    .command "INSERT INTO t VALUES ('x');", .command "INSERT INTO t VALUES ('y');",
    .command "DELETE FROM t WHERE id == 2;", .restart, .command "USE d;"]

/-- The key of the deleted row does not come back. -/
theorem lastKey_eq_given_deletion :
    let root := Path.ofText "r"
    ∃ begin, Session.openAt root Disk.empty = .ok ⟨⟨root⟩, none⟩ begin ∧
      let life := Life.play root ⟨⟨⟨root⟩, none⟩, begin, .start⟩ deletion
      life.tally.given "d" "t" = some 2 ∧
        life.session.current = some ⟨"d", [⟨"t", ["id", "a"], [["1", "x"]], 2⟩]⟩ ∧
        (life.session.execute "INSERT INTO t VALUES ('z');" life.disk).2.1.current =
          some ⟨"d", [⟨"t", ["id", "a"], [["1", "x"], ["3", "z"]], 3⟩]⟩ := by
  intro root
  let begin := Disk.empty.put ["r"] .directory
  let life := Life.play root ⟨⟨⟨root⟩, none⟩, begin, .start⟩ deletion
  have opened : Session.openAt root Disk.empty = .ok ⟨⟨root⟩, none⟩ begin := by decide +kernel
  obtain ⟨given, selected, answered⟩ : life.tally.given "d" "t" = some 2 ∧
      life.session.current = some ⟨"d", [⟨"t", ["id", "a"], [["1", "x"]], 2⟩]⟩ ∧
      (life.session.execute "INSERT INTO t VALUES ('z');" life.disk).1 = .answered .done := by
    decide +kernel
  refine ⟨begin, opened, given, selected, ?_⟩
  obtain ⟨-, counts⟩ := lastKey_eq_given (Disk.isBare_empty _) opened deletion
  obtain ⟨table, -, -, -, -, held⟩ := counts "d" "t" 2 given
  obtain ⟨member, inserts⟩ := held _ selected rfl
  obtain rfl := List.mem_singleton.mp member
  have inserted := inserts "INSERT INTO t VALUES ('z');" [⟨"'z'", .string⟩] (by decide +kernel)
  split at inserted
  · rename_i reply answer next after same
    rw [same]
    exact inserted.trans (by decide +kernel)
  · rename_i reply activity error next after same
    rw [same] at answered
    cases answered

end Life

end TextTables
