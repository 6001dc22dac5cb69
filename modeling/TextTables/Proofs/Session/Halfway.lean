import TextTables.Proofs.Session.Changes
import TextTables.Proofs.Session.Memory
import TextTables.Proofs.Store.Restoring

/-!
# What a failed command leaves on the disk

Nothing on the disk is taken back. A command that fails has left the disk as it was exactly if the
first of its steps on the disk did not go through, or changed nothing.
-/

namespace TextTables

open Text

namespace SessionM

variable {First Second : Type} {work : SessionM First} {next : First → SessionM Second}
  {space : Workspace} {begun : Prop}

/-- Work that fails has left the disk as it was, unless it had begun. -/
def SparesUnless (work : SessionM First) (space : Workspace) (begun : Prop) : Prop :=
  ∀ error after, work space = .error error after → (space.disk.Same after.disk ↔ ¬ begun)

theorem NeverFails.sparesUnless (sure : NeverFails work) (space : Workspace) (begun : Prop) :
    SparesUnless work space begun :=
  fun _ _ failed => absurd failed (sure _ _ _)

theorem SparesUnless.congr {other : Prop} (spares : SparesUnless work space other)
    (same : other ↔ begun) : SparesUnless work space begun := by
  rwa [← propext same]

/-- What a failed check leaves is what it was. -/
theorem SparesUnless.find {outcome : Except Error First} (begun : First → Prop)
    (rest : ∀ result, outcome = .ok result → SparesUnless (next result) space (begun result)) :
    SparesUnless (ofExcept outcome >>= next) space
      (∃ result, outcome = .ok result ∧ begun result) := by
  intro error after failed
  cases outcome with
  | error other =>
      cases failed
      exact iff_of_true (Disk.Same.refl _) (by simp)
  | ok result =>
      rw [rest result rfl error after failed]
      simp

theorem sparesUnless_ofExcept (outcome : Except Error First) (space : Workspace) :
    SparesUnless (ofExcept outcome) space False := by
  intro error after failed
  cases outcome <;> cases failed
  exact iff_of_true (Disk.Same.refl _) not_false

theorem SparesUnless.check {next : Unit → SessionM Second} {outcome : Except Error Unit}
    (begun : Prop)
    (rest : outcome = .ok () → SparesUnless (next ()) space begun) :
    SparesUnless (ofExcept outcome >>= next) space (outcome = .ok () ∧ begun) := by
  refine (SparesUnless.find (fun _ => begun) fun _ => rest).congr ?_
  exact ⟨fun ⟨_, passed, rest⟩ => ⟨passed, rest⟩, fun ⟨passed, rest⟩ => ⟨(), passed, rest⟩⟩

theorem SparesUnless.findSchema {outcome : Except SchemaError First} (begun : First → Prop)
    (rest : ∀ result, outcome = .ok result → SparesUnless (next result) space (begun result)) :
    SparesUnless (ofExcept (outcome.mapError Error.schema) >>= next) space
      (∃ result, outcome = .ok result ∧ begun result) := by
  refine (SparesUnless.find begun fun result found => ?_).congr ?_
  · exact rest result (Work.mapError_eq_ok_iff.mp found)
  · simp only [Work.mapError_eq_ok_iff]

theorem SparesUnless.selected {next : Database → SessionM Second} (begun : Database → Prop)
    (rest : ∀ database, SparesUnless (next database) space (begun database)) :
    SparesUnless (SessionM.selected >>= next) space
      (∃ database, space.current = some database ∧ begun database) := by
  intro error after failed
  obtain ⟨current, disk⟩ := space
  cases current with
  | none =>
      cases failed
      exact iff_of_true (Disk.Same.refl _) (by simp)
  | some database =>
      rw [rest database error after failed]
      simp

theorem SparesUnless.onDisk {work : StoreM First}
    (spared : ∀ error after, work space.disk = .error error after →
      (space.disk.Same after ↔ ¬ begun)) : SparesUnless (onDisk work) space begun := by
  intro error after failed
  unfold SessionM.onDisk at failed
  split at failed
  · cases failed
  · rename_i stopped
    cases failed
    exact spared _ _ stopped

/-- Only the first part of the work can fail. -/
theorem SparesUnless.andThen (first : SparesUnless work space begun)
    (sure : ∀ result middle, work space = .ok result middle →
      ∀ error after, next result middle ≠ .error error after) :
    SparesUnless (work >>= next) space begun := by
  intro error after failed
  rcases Work.bind_eq_error_iff.mp failed with early | ⟨result, middle, done, late⟩
  · exact first error after early
  · exact absurd late (sure result middle done error after)

end SessionM

namespace Session

open SessionM Store

/-- The table to be changed is there and can be changed, and its file is to be written anew. -/
def BeginsChange (session : Session) (disk : Disk) (name : String)
    (change : Table → Except SchemaError Table) : Prop :=
  checkName name = .ok () ∧ ∃ database, session.current = some database ∧
    ∃ table, database.table name = .ok table ∧ ∃ changed, change table = .ok changed ∧
      disk.Rewrites (tablePath (session.store.directory database.name) changed.name) changed.render

/-- The statement passes its checks, and the first of its steps on the disk goes through and
changes something. -/
def Begins (session : Session) (disk : Disk) : Statement → Prop
  | .use name => checkName name = .ok () ∧ disk.Restores (session.store.directory name) name
  | .createDatabase _ => False
  | .createTable name columns =>
      checkName name = .ok () ∧ ∃ database, session.current = some database ∧
        database.requireFree name = .ok () ∧
        ∃ table, Table.withColumns name columns = .ok table ∧
          disk.IsFree (tablePath (session.store.directory database.name) table.name)
  | .dropDatabase name =>
      checkName name = .ok () ∧ disk.CanEmpty (session.store.directory name)
  | .dropTable name =>
      checkName name = .ok () ∧ ∃ database, session.current = some database ∧
        ∃ table, database.table name = .ok table ∧
          disk.isFile (tablePath (session.store.directory database.name) name)
  | .alter name change column => session.BeginsChange disk name (change.apply column)
  | .insert name values =>
      session.BeginsChange disk name fun table => table.insert (values.map Literal.text)
  | .select _ _ _ => False
  | .update name assignments condition =>
      session.BeginsChange disk name fun table => table.update assignments condition
  | .delete name condition => session.BeginsChange disk name fun table => table.delete condition
  | .join _ _ _ _ => False

variable {session : Session} {disk : Disk} {name : String}

theorem changeTable_spares (store : Store) (change : Table → Except SchemaError Table)
    (space : Workspace) :
    SparesUnless (changeTable store name change) space (∃ database, space.current = some database ∧
      ∃ table, database.table name = .ok table ∧ ∃ changed, change table = .ok changed ∧
        space.disk.Rewrites (tablePath (store.directory database.name) changed.name)
          changed.render) := by
  refine SparesUnless.selected _ fun database => ?_
  refine SparesUnless.find _ fun table _ => ?_
  refine SparesUnless.findSchema _ fun changed _ => ?_
  refine SparesUnless.andThen (SparesUnless.onDisk fun _ _ => saveTable_same_iff) ?_
  exact fun _ middle _ error after => neverFails_select _ middle after error

theorem createTable_spares (store : Store) (named : IsName name) (columns : List String)
    (space : Workspace) :
    SparesUnless (createTable store name columns) space
      (∃ database, space.current = some database ∧ database.requireFree name = .ok () ∧
        ∃ table, Table.withColumns name columns = .ok table ∧
          space.disk.IsFree (tablePath (store.directory database.name) table.name)) := by
  refine SparesUnless.selected _ fun database => ?_
  refine SparesUnless.check _ fun free => ?_
  refine SparesUnless.findSchema _ fun table shape => ?_
  refine SparesUnless.andThen (SparesUnless.onDisk fun _ _ => createTable_same_iff) ?_
  intro _ middle _ error after failed
  obtain ⟨-, -, shaped⟩ := Table.withColumns_eq_ok shape
  have key : table.key = lowercase name := by
    rw [Table.key, shaped, named.lower]
    exact named.lower
  have fresh := Database.requireFree_eq_ok free
  rw [← key] at fresh
  rw [Database.addTable_ok fresh] at failed
  exact neverFails_select _ middle after error failed

theorem dropTable_spares (store : Store) (space : Workspace) :
    SparesUnless (dropTable store name) space
      (∃ database, space.current = some database ∧ ∃ table, database.table name = .ok table ∧
        space.disk.isFile (tablePath (store.directory database.name) name)) := by
  refine SparesUnless.selected _ fun database => ?_
  refine SparesUnless.find _ fun table found => ?_
  refine SparesUnless.andThen (SparesUnless.onDisk fun _ _ => deleteTable_same_iff) ?_
  intro _ middle _ error after failed
  rw [Database.removeTable_ok found] at failed
  exact neverFails_select _ middle after error failed

/-- Behind the checks, work that answers at its end spares the disk as the work itself does. -/
theorem checked_spares {work : SessionM Unit} {space : Workspace} {begun : Prop} {answer : Answer}
    (spares : SparesUnless work space begun) :
    SparesUnless (do ofExcept (checkName name); work; return answer) space
      (checkName name = .ok () ∧ begun) := by
  refine SparesUnless.check _ fun _ => SparesUnless.andThen spares ?_
  exact fun _ middle _ error after => neverFails_pure _ middle after error

theorem query_spares (columns : Selection) (condition : Option Condition) (space : Workspace) :
    SparesUnless (query name columns condition) space False := by
  unfold query
  refine (SparesUnless.selected (fun _ => False) fun database => ?_).congr (by simp)
  refine (SparesUnless.find (fun _ => False) fun table _ => ?_).congr (by simp)
  exact sparesUnless_ofExcept _ _

theorem perform_spares {statement : Statement} (named : disk.HasFileNames)
    (spelled : statement.WellSpelled) :
    SparesUnless (perform session.store statement) ⟨session.current, disk⟩
      (session.Begins disk statement) := by
  cases statement with
  | use name =>
      refine SparesUnless.check _ fun _ => ?_
      refine SparesUnless.andThen (SparesUnless.onDisk fun _ _ => loadDatabase_same_iff) ?_
      intro database middle _ error after failed
      cases failed
  | createDatabase name =>
      refine (SparesUnless.check False fun _ => ?_).congr (by simp [Begins])
      refine SparesUnless.andThen (SparesUnless.onDisk fun _ _ failed => ?_) ?_
      · exact iff_of_true (createDatabase_same failed) not_false
      · exact fun _ middle _ error after => neverFails_pure _ middle after error
  | createTable name columns => exact checked_spares (createTable_spares _ spelled.1 _ _)
  | dropDatabase name =>
      refine SparesUnless.check _ fun _ => ?_
      refine SparesUnless.andThen (SparesUnless.onDisk fun _ _ => dropDatabase_same_iff named) ?_
      intro _ middle _ error after failed
      cases failed
  | dropTable name => exact checked_spares (dropTable_spares _ _)
  | alter name change column => exact checked_spares (changeTable_spares _ _ _)
  | insert name values => exact checked_spares (changeTable_spares _ _ _)
  | update name assignments condition => exact checked_spares (changeTable_spares _ _ _)
  | delete name condition => exact checked_spares (changeTable_spares _ _ _)
  | select columns name condition =>
      refine (SparesUnless.check False fun _ => ?_).congr (by simp [Begins])
      apply SparesUnless.andThen (query_spares _ _ _)
      exact fun _ middle _ error after => neverFails_pure _ middle after error
  | join first second firstAttribute secondAttribute =>
      refine (SparesUnless.check False fun _ => ?_).congr (by simp [Begins])
      refine (SparesUnless.check False fun _ => ?_).congr (by simp)
      refine (SparesUnless.selected (fun _ => False) fun database => ?_).congr (by simp)
      refine (SparesUnless.find (fun _ => False) fun result _ => ?_).congr (by simp)
      exact (neverFails_pure _).sparesUnless _ _

/-- A command that fails leaves the disk as it was, unless its statement had begun. -/
theorem node?_eq_of_execute_failed_iff {next : Session} {command activity : String} {error : Error}
    {after : Disk} (named : disk.HasFileNames)
    (failed : session.execute command disk = (.failed activity error, next, after)) :
    (∀ place, after.node? place = disk.node? place) ↔
      ∀ statement, Statement.parse command = .ok statement → ¬ session.Begins disk statement := by
  unfold execute at failed
  cases read : Statement.parse command with
  | error unread =>
      rw [read] at failed
      cases failed
      exact iff_of_true (Disk.Same.refl _) (by simp)
  | ok statement =>
      rw [read] at failed
      dsimp only at failed
      cases outcome : perform session.store statement ⟨session.current, disk⟩ with
      | ok answer space =>
          rw [outcome] at failed
          cases failed
      | error stop space =>
          rw [outcome] at failed
          cases failed
          have spares := perform_spares named (Statement.wellSpelled_of_parse read) _ _ outcome
          simp only [Except.ok.injEq, forall_eq']
          exact spares

theorem hasFileNames_blockedDisk : blockedDisk.HasFileNames :=
  Disk.hasFileNames_of_entries (by decide +kernel)

/-- A row that the table refuses leaves the disk alone. -/
theorem node?_eq_of_insert_refused :
    let (response, _, after) :=
      blockedSession.execute "INSERT INTO t VALUES ('y', 'z');" blockedDisk
    response = .failed "Failed inserting into table" (.schema (.tooManyValues "t")) ∧
      ∀ place, after.node? place = blockedDisk.node? place := by
  have failed : (blockedSession.execute "INSERT INTO t VALUES ('y', 'z');" blockedDisk).1 =
      .failed "Failed inserting into table" (.schema (.tooManyValues "t")) := by
    decide +kernel
  refine ⟨failed, (node?_eq_of_execute_failed_iff hasFileNames_blockedDisk
    (Prod.ext failed rfl)).mpr ?_⟩
  intro statement parsed begun
  have reads : Statement.parse "INSERT INTO t VALUES ('y', 'z');" =
      .ok (.insert "t" [⟨"'y'", .string⟩, ⟨"'z'", .string⟩]) := by
    decide +kernel
  cases reads.symm.trans parsed
  obtain ⟨-, database, selected, table, found, changed, accepted, -⟩ := begun
  cases selected
  have held : (⟨"d", [⟨"t", ["id", "a"], [], 0⟩]⟩ : Database).table "t" =
      .ok ⟨"t", ["id", "a"], [], 0⟩ := by
    decide +kernel
  cases held.symm.trans found
  have refused : (⟨"t", ["id", "a"], [], 0⟩ : Table).insert
      ([⟨"'y'", .string⟩, ⟨"'z'", .string⟩].map Literal.text) = .error (.tooManyValues "t") := by
    decide +kernel
  cases refused.symm.trans accepted

/-- A row whose primary key cannot be written is in its table file all the same. -/
theorem node?_ne_of_insert_blocked :
    let (response, _, after) := blockedSession.execute "INSERT INTO t VALUES ('y');" blockedDisk
    response = .failed "Failed inserting into table" (.disk .isDirectory) ∧
      blockedDisk.node? ["r", "d", "t.tab"] = some (.file "id\ta".toUTF8) ∧
      after.node? ["r", "d", "t.tab"] = some (.file "id\ta\n1\ty".toUTF8) := by
  decide +kernel

end Session

end TextTables
