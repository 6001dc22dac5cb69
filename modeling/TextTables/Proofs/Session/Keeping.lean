import TextTables.Proofs.Session.Insertions
import TextTables.Proofs.Session.Runs
import TextTables.Proofs.Store.Accounting
import TextTables.Proofs.Store.Reopening

/-!
# Tables in memory that are stored

In a run from a new store, whatever its path leads through, each table in memory is stored in the
directory of its database, for as long as the root leads to its end. What a command answers from
memory is then what the disk holds.
-/

namespace TextTables

open Location Work

/-- As long as the root leads to its end, all table files are accounted for, and the tables in
memory are stored. -/
structure Workspace.Kept (root : Path) (top : Location) (space : Workspace) : Prop where
  orderly : space.disk.Orderly root top
  wellNamed : ∀ database, space.current = some database → database.WellNamed
  fits : ∀ database, space.current = some database → root.CanName database.name
  accounted : space.disk.Leads root top → space.disk.Accounted root top
  stored : space.disk.Leads root top → ∀ database, space.current = some database →
    ∀ table ∈ database.tables,
      space.disk.Stores (root.join database.name) (top ++ [database.name]) table

namespace Workspace.Kept

variable {store : Store} {top : Location} {space : Workspace} {statement : Statement}
  {database : Database} {table : Table} {name : String}

/-- Where the root leads nowhere, all that is left to keep up is that the disk is in order. -/
theorem of_lost (kept : space.Kept store.root top) {after : Disk}
    (orderly : after.Orderly store.root top) (lost : ¬ after.Leads store.root top) :
    (⟨space.current, after⟩ : Workspace).Kept store.root top :=
  ⟨orderly, kept.wellNamed, kept.fits, fun leads => absurd leads lost,
    fun leads => absurd leads lost⟩

theorem used (kept : space.Kept store.root top) (named : IsName name) :
    (left (Session.conclude space.current some
      (store.loadDatabase name space.disk))).Kept store.root top := by
  by_cases leads : space.disk.Leads store.root top
  · rcases Store.loadDatabase_accounted kept.orderly (kept.accounted leads) named with
      ⟨error, failed⟩ | ⟨database, loaded, fits, brought⟩
    · rw [failed]
      exact kept
    · rw [loaded]
      obtain ⟨wellNamed, rfl⟩ := Store.wellNamed_of_loadDatabase kept.orderly named loaded
      refine ⟨kept.orderly, ?_, ?_, kept.accounted, fun _ => ?_⟩
      · rintro _ ⟨⟩
        exact wellNamed
      · rintro _ ⟨⟩
        exact fits
      · rintro _ ⟨⟩
        exact brought
  · have missing := kept.orderly.not_isDirectory_of_lost leads named.isFileName
    rw [Store.loadDatabase_unknown missing]
    exact kept

theorem made (kept : space.Kept store.root top) (named : IsName name) :
    (left (Session.conclude space.current (fun _ => space.current)
      (store.createDatabase name space.disk))).Kept store.root top := by
  have same : left (Session.conclude space.current (fun _ => space.current)
      (store.createDatabase name space.disk)) =
        ⟨space.current, left (store.createDatabase name space.disk)⟩ := by
    cases store.createDatabase name space.disk <;> rfl
  rw [same]
  by_cases leads : space.disk.Leads store.root top
  · have grown := Store.createDatabase_grown kept.orderly named
    have accounted :=
      Store.createDatabase_accounted kept.orderly (kept.accounted leads) named
    exact ⟨grown.orderly, kept.wellNamed, kept.fits, fun _ => accounted,
      fun _ database selected table member =>
        (kept.stored leads database selected table member).grown grown⟩
  · obtain ⟨error, failed⟩ :=
      Store.createDatabase_of_lost kept.orderly leads named.isFileName
    rw [failed]
    exact kept

theorem dropped (kept : space.Kept store.root top) (named : IsName name) :
    (left (Session.conclude space.current
      (fun _ => space.current.filter fun database => database.name ≠ name)
      (store.dropDatabase name space.disk))).Kept store.root top := by
  have cut := Store.dropDatabase_cut kept.orderly named
  by_cases leads : space.disk.Leads store.root top
  · have accounted := kept.accounted leads
    cases outcome : store.dropDatabase name space.disk with
    | ok result after =>
        rw [outcome] at cut
        have before : ∀ database, space.current.filter (fun database => database.name ≠ name) =
            some database → space.current = some database ∧ database.name ≠ name := by
          intro database selected
          simpa using Option.filter_eq_some_iff.mp selected
        refine ⟨cut.orderly, fun database selected => kept.wellNamed _ (before _ selected).1,
          fun database selected => kept.fits _ (before _ selected).1,
          fun _ => Store.dropDatabase_accounted kept.orderly accounted named outcome,
          fun _ database selected table member => ?_⟩
        obtain ⟨was, apart⟩ := before _ selected
        exact (kept.stored leads database was table member).cut_other cut apart
    | error error after =>
        rw [outcome] at cut
        by_cases onward : after.Leads store.root top
        · rw [Store.dropDatabase_whole kept.orderly accounted.clearable named outcome
            onward]
          exact kept
        · exact kept.of_lost cut.orderly onward
  · have missing := kept.orderly.not_isDirectory_of_lost leads named.isFileName
    rw [Store.dropDatabase_unknown missing]
    exact kept

/-- The tables of other names are stored after work on a table of the selected database. -/
theorem stored_of_worked (kept : space.Kept store.root top)
    (leads : space.disk.Leads store.root top)
    (selected : space.current = some database) (named : IsName name) {after : Disk}
    (worked : Disk.WorkedOn store.root top database.name name space.disk after)
    (member : table ∈ database.tables) (apart : table.name ≠ name) :
    after.Stores (store.root.join database.name) (top ++ [database.name]) table :=
  (kept.stored leads database selected table member).worked named worked fun _ => apart

theorem created (kept : space.Kept store.root top) {columns : List String}
    (spelled : (Statement.createTable name columns).WellSpelled)
    (selected : space.current = some database)
    (shaped : Table.withColumns name columns = .ok table)
    (fresh : ∀ other ∈ database.tables, other.key ≠ table.key) :
    (left (Session.conclude space.current
      (fun _ => some { database with tables := Database.place table database.tables })
      (store.createTable database.name table space.disk))).Kept store.root top := by
  have wellNamed := kept.wellNamed database selected
  obtain ⟨sound, rfl, -⟩ := Table.Sound.withColumns spelled.1 spelled.2 shaped
  have apart : ∀ other ∈ database.tables, other.name ≠ table.name := by
    intro other member same
    exact fresh other member (by rw [Table.key, Table.key, same])
  by_cases leads : space.disk.Leads store.root top
  · have worked :=
      Store.createTable_workedOn kept.orderly wellNamed.named sound.named
    have accounted := Store.createTable_accounted kept.orderly (kept.accounted leads)
      wellNamed.named sound
    cases outcome : store.createTable database.name table space.disk with
    | ok result after =>
        rw [outcome] at worked accounted
        refine ⟨worked.orderly, ?_, ?_, fun _ => accounted, fun _ => ?_⟩
        · rintro _ ⟨⟩
          exact wellNamed.place sound.named fresh
        · rintro _ ⟨⟩
          exact kept.fits database selected
        · rintro _ ⟨⟩ other member
          rcases Database.mem_place.mp member with rfl | old
          · exact Store.createTable_stores kept.orderly wellNamed.named sound
              outcome
          · exact kept.stored_of_worked leads selected sound.named worked old (apart other old)
    | error error after =>
        rw [outcome] at worked accounted
        refine ⟨worked.orderly, kept.wellNamed, kept.fits, fun _ => accounted, fun _ => ?_⟩
        intro other chosen table member
        cases chosen.symm.trans selected
        exact kept.stored_of_worked leads selected sound.named worked member (apart _ member)
  · obtain ⟨error, failed⟩ :=
      Store.createTable_of_lost kept.orderly leads wellNamed.named sound.named
    rw [failed]
    exact kept

theorem removed (kept : space.Kept store.root top) (named : IsName name)
    (selected : space.current = some database) (found : database.table name = .ok table) :
    (left (Session.conclude space.current
      (fun _ => some { database with
        tables := database.tables.filter fun other => other.key != table.key })
      (store.deleteTable database.name name space.disk))).Kept store.root top := by
  have wellNamed := kept.wellNamed database selected
  obtain ⟨member, key⟩ := Database.table_eq_ok found
  rw [named.lower] at key
  obtain rfl : table.name = name := (wellNamed.tables table member).lower.symm.trans key
  by_cases leads : space.disk.Leads store.root top
  · have worked :=
      Store.deleteTable_workedOn kept.orderly wellNamed.named named
    cases outcome : store.deleteTable database.name table.name space.disk with
    | ok result after =>
        rw [outcome] at worked
        have accounted := Store.deleteTable_accounted kept.orderly
          (kept.accounted leads) wellNamed.named named outcome
        refine ⟨worked.orderly, ?_, ?_, fun _ => accounted, fun _ => ?_⟩
        · rintro _ ⟨⟩
          exact wellNamed.filter _
        · rintro _ ⟨⟩
          exact kept.fits database selected
        · rintro _ ⟨⟩ other inside
          obtain ⟨old, differs⟩ := List.mem_filter.mp inside
          refine kept.stored_of_worked leads selected named worked old fun same => ?_
          simp [Table.key, same] at differs
    | error error after =>
        rw [Store.deleteTable_unchanged kept.orderly wellNamed.named
          (kept.stored leads database selected table member) outcome]
        exact kept
  · obtain ⟨error, failed⟩ :=
      Store.deleteTable_of_lost kept.orderly leads wellNamed.named named
    rw [failed]
    exact kept

theorem changed (kept : space.Kept store.root top) {changed : Table}
    {change : Table → Except SchemaError Table}
    (spelled : statement.WellSpelled) (changes : statement.change? = some (name, change))
    (selected : space.current = some database) (found : database.table name = .ok table)
    (done : change table = .ok changed) :
    (left (Session.conclude space.current (fun _ => some (database.update changed))
      (store.saveTable database.name changed space.disk))).Kept store.root top := by
  have wellNamed := kept.wellNamed database selected
  obtain ⟨member, -⟩ := Database.table_eq_ok found
  obtain ⟨same, -⟩ := Table.name_of_change changes done
  have named : IsName changed.name := same ▸ wellNamed.tables table member
  have present : ∃ old ∈ database.tables, old.key = changed.key :=
    ⟨table, member, by rw [Table.key, Table.key, same]⟩
  by_cases leads : space.disk.Leads store.root top
  · have stored := kept.stored leads database selected table member
    have sound := stored.sound.of_change spelled changes done
    have worked := Store.saveTable_workedOn kept.orderly wellNamed.named named
    cases outcome : store.saveTable database.name changed space.disk with
    | ok result after =>
        rw [outcome] at worked
        have accounted := Store.saveTable_accounted kept.orderly (kept.accounted leads)
          wellNamed.named sound outcome
        refine ⟨worked.orderly, ?_, ?_, fun _ => accounted, fun _ => ?_⟩
        · rintro _ ⟨⟩
          exact wellNamed.update named present
        · rintro _ ⟨⟩
          exact kept.fits database selected
        · rintro _ ⟨⟩ other inside
          rcases (Database.mem_update present).mp inside with rfl | ⟨old, differs⟩
          · exact Store.saveTable_stores kept.orderly wellNamed.named sound
              outcome
          · refine kept.stored_of_worked leads selected named worked old fun called => differs ?_
            rw [Table.key, Table.key, called]
    | error error after =>
        rw [Store.saveTable_unchanged kept.orderly wellNamed.named stored same
          outcome]
        exact kept
  · obtain ⟨error, failed⟩ :=
      Store.saveTable_of_lost kept.orderly leads wellNamed.named named
    rw [failed]
    exact kept

/-- Whatever a statement comes to, memory and disk stay in step. -/
theorem effect (kept : space.Kept store.root top) (spelled : statement.WellSpelled)
    {outcome : EStateM.Result Error Workspace Answer}
    (effect : Session.Effect store space statement outcome) :
    (left outcome).Kept store.root top := by
  cases effect with
  | refused statement error => exact kept
  | queried columns name condition result => exact kept
  | joined first second firstAttribute secondAttribute result => exact kept
  | used name => exact kept.used spelled
  | made name => exact kept.made spelled
  | dropped name => exact kept.dropped spelled
  | created selected shaped fresh => exact kept.created spelled selected shaped fresh
  | removed selected found => exact kept.removed spelled selected found
  | changed changes selected found done => exact kept.changed spelled changes selected found done

end Workspace.Kept

namespace Session

variable {top : Location} {session : Session} {disk : Disk}

/-- A session and the disk that it works on are in step. -/
def Keeps (top : Location) (session : Session) (disk : Disk) : Prop :=
  (⟨session.current, disk⟩ : Workspace).Kept session.store.root top

theorem Keeps.execute (keeps : session.Keeps top disk) (command : String) :
    (session.execute command disk).2.1.Keeps top (session.execute command disk).2.2 := by
  rcases execute_cases session command disk with ⟨error, -, same⟩ |
    ⟨statement, outcome, -, spelled, effect, same⟩
  · rw [same]
    exact keeps
  · have next := Workspace.Kept.effect keeps spelled effect
    rw [same]
    cases outcome <;> exact next

theorem Keeps.executeAll (keeps : session.Keeps top disk) (commands : List String) :
    (session.executeAll disk commands).2.1.Keeps top (session.executeAll disk commands).2.2 :=
  executeAll_preserves (fun session disk => session.Keeps top disk)
    (fun _ _ command keeps => keeps.execute command) keeps commands

/-- A session that has just been opened on a new store has nothing to keep in step. -/
theorem keeps_openAt {root : Path} {start : Disk} (bare : disk.IsBare root)
    (slashFree : ∀ segment ∈ root.segments, '/' ∉ segment.toList)
    (opened : openAt root disk = .ok session start) : session.Keeps (disk.endOf root) start := by
  obtain ⟨store, fresh⟩ := eq_of_openAt opened
  have grown := openAt_grown bare.orderly slashFree
  obtain ⟨accounted, -⟩ := accounted_of_openAt bare opened
  rw [opened] at grown
  unfold Keeps
  rw [store, fresh]
  exact ⟨grown.orderly, nofun, nofun, fun _ => accounted, fun _ => nofun⟩

/-- In a run from a new store, each table in memory is stored as long as the root leads to its
end. -/
theorem executeAll_keeps {path : String} {start : Disk} (bare : disk.IsBare (.ofText path))
    (opened : openAt (.ofText path) disk = .ok session start) (commands : List String) :
    (session.executeAll start commands).2.1.Keeps (disk.endOf (.ofText path))
      (session.executeAll start commands).2.2 :=
  (keeps_openAt bare (Path.slashFree_ofText path) opened).executeAll commands

end Session

end TextTables
