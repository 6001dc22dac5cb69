import TextTables.Proofs.Session.Drift

/-!
# Steps of a session on its own

A session that works on its store alone holds the database that is stored. What a statement does
then depends on the shelves of the store alone, and the session and the disk go along with it.
-/

namespace TextTables

namespace Scene

/-- What a statement does in a session that holds what is stored. -/
inductive Step (root : Path) (scene : Scene) : Statement → Option Answer → Scene → Prop
  | failed (statement : Statement) : Step root scene statement none scene
  | queried (columns : Selection) (name : String) (condition : Option Condition)
      (result : ResultSet) :
      Step root scene (.select columns name condition) (some (.table result)) scene
  | joined (first second : String) (firstAttribute secondAttribute : Attribute)
      (result : ResultSet) :
      Step root scene (.join first second firstAttribute secondAttribute) (some (.table result))
        scene
  | read {name : String} {shelf : Shelf} (present : scene.world name = some shelf)
      (readable : shelf.Readable) :
      Step root scene (.use name) (some .done) { scene with current := some ⟨name, shelf.tables⟩ }
  | made {name : String} (free : scene.world name = none) :
      Step root scene (.createDatabase name) (some .done)
        { scene with world := Function.update scene.world name (some .empty) }
  | dropped {name : String} {shelf : Shelf} (present : scene.world name = some shelf) :
      Step root scene (.dropDatabase name) (some .done)
        ⟨scene.current.filter fun database => database.name ≠ name,
          Function.update scene.world name none⟩
  | created {name : String} {columns : List String} {database : Database} {shelf : Shelf}
      {table : Table} (selected : scene.current = some database)
      (present : scene.world database.name = some shelf)
      (shaped : Table.withColumns name columns = .ok table)
      (fits : (root.join database.name).CanName (name ++ counterEnding)) :
      Step root scene (.createTable name columns) (some .done)
        ⟨some { database with tables := Database.place table database.tables },
          Function.update scene.world database.name (some (shelf.insert table))⟩
  | torn {name : String} {columns : List String} {database : Database} {shelf : Shelf}
      (selected : scene.current = some database)
      (present : scene.world database.name = some shelf)
      (long : ¬ (root.join database.name).CanName (name ++ counterEnding)) :
      Step root scene (.createTable name columns) none
        { scene with world := Function.update scene.world database.name (some (shelf.strand name)) }
  | removed {name : String} {database : Database} {shelf : Shelf} {table : Table}
      (selected : scene.current = some database)
      (present : scene.world database.name = some shelf) (member : table ∈ shelf.tables)
      (named : table.name = name) :
      Step root scene (.dropTable name) (some .done)
        ⟨some { database with
            tables := database.tables.filter fun other => other.key != table.key },
          Function.update scene.world database.name (some (shelf.remove table))⟩
  | changed {statement : Statement} {name : String} {change : Table → Except SchemaError Table}
      {database : Database} {shelf : Shelf} {table changed : Table}
      (changes : statement.change? = some (name, change))
      (selected : scene.current = some database)
      (present : scene.world database.name = some shelf) (member : table ∈ shelf.tables)
      (named : table.name = name) (done : change table = .ok changed) :
      Step root scene statement (some .done)
        ⟨some (database.update changed),
          Function.update scene.world database.name (some (shelf.update changed))⟩

theorem Step.move {root : Path} {scene next : Scene} {statement : Statement}
    {answer : Option Answer} (step : scene.Step root statement answer next) :
    Move root scene.world statement answer next.world := by
  cases step with
  | failed | queried | joined | read => exact .stays _ _
  | made free => exact .made _ _
  | dropped present => exact .dropped present
  | created selected present => exact .put present rfl
  | torn selected present long => exact .torn present long
  | removed selected present => exact .put present rfl
  | changed changes selected present => exact .put present rfl

/-- The disk holds the databases of the scene, and the selected one is held as it is in memory. -/
structure Shows (scene : Scene) (root : Path) (top : Location) (disk : Disk) : Prop where
  mirrors : disk.Mirrors root top scene.world
  selected : ∀ database, scene.current = some database →
    ∃ shelf, scene.world database.name = some shelf ∧ shelf.tables = database.tables

/-- What the work comes to is a step of the statement, to a scene that the disk shows again. -/
def Follows (scene : Scene) (root : Path) (top : Location) (statement : Statement) :
    EStateM.Result Error Workspace Answer → Prop
  | .ok answer space => ∃ world, scene.Step root statement (some answer) ⟨space.current, world⟩ ∧
      Shows ⟨space.current, world⟩ root top space.disk
  | .error _ space => ∃ world, scene.Step root statement none ⟨space.current, world⟩ ∧
      Shows ⟨space.current, world⟩ root top space.disk

variable {scene next : Scene} {root : Path} {top : Location} {disk : Disk} {statement : Statement}
  {answer : Option Answer}

/-- Where no database is selected, only the disk counts. -/
theorem Shows.of_mirrors {world : World} (mirrors : disk.Mirrors root top world) :
    Shows ⟨none, world⟩ root top disk where
  mirrors := mirrors
  selected database selected := by cases selected

theorem Shows.tables_eq (shows : scene.Shows root top disk) {database : Database} {shelf : Shelf}
    (selected : scene.current = some database)
    (present : scene.world database.name = some shelf) : shelf.tables = database.tables := by
  obtain ⟨other, there, same⟩ := shows.selected database selected
  cases present.symm.trans there
  exact same

theorem Shows.stands (shows : scene.Shows root top disk) : scene.Stands root top disk where
  mirrors := shows.mirrors
  proper database selected := by
    obtain ⟨shelf, present, same⟩ := shows.selected database selected
    obtain ⟨⟨named, -, -⟩, -, holds⟩ := shows.mirrors.houses_some present
    exact ⟨named, same ▸ holds.sorted, same ▸ holds.sound, same ▸ holds.fits⟩

/-- Behind a change of one shelf, the selected database is that shelf once more. -/
theorem selected_update {world : World} {name : String} {shelf : Shelf} {tables : List Table}
    (same : shelf.tables = tables) :
    ∀ database, some (Database.mk name tables) = some database →
      ∃ other, Function.update world name (some shelf) database.name = some other ∧
        other.tables = database.tables := by
  rintro database ⟨⟩
  exact ⟨shelf, Function.update_self _ _ _, same⟩

/-- What the session holds is what is stored, so that a drift is a step, and still is behind it. -/
theorem Drift.step (drift : scene.Drift root statement answer next)
    (spelled : statement.WellSpelled) (shows : scene.Shows root top disk) :
    scene.Step root statement answer next ∧ ∀ database, next.current = some database →
      ∃ shelf, next.world database.name = some shelf ∧ shelf.tables = database.tables := by
  have stands := shows.stands
  cases drift with
  | failed => exact ⟨.failed _, shows.selected⟩
  | queried columns name condition result => exact ⟨.queried _ _ _ _, shows.selected⟩
  | joined => exact ⟨.joined _ _ _ _ _, shows.selected⟩
  | @read name shelf present readable =>
      refine ⟨.read present readable, ?_⟩
      rintro database ⟨⟩
      exact ⟨shelf, present, rfl⟩
  | @made name free =>
      refine ⟨.made free, fun database selected => ?_⟩
      obtain ⟨shelf, present, same⟩ := shows.selected database selected
      have apart : database.name ≠ name := by
        rintro rfl
        cases free.symm.trans present
      exact ⟨shelf, (Function.update_of_ne apart _ _).trans present, same⟩
  | @dropped name shelf there =>
      refine ⟨.dropped there, fun database selected => ?_⟩
      obtain ⟨current, different⟩ := Option.filter_eq_some_iff.mp selected
      obtain ⟨other, present, same⟩ := shows.selected database current
      have apart : database.name ≠ name := by simpa using different
      exact ⟨other, (Function.update_of_ne apart _ _).trans present, same⟩
  | created selected present shaped free fresh fits =>
      have same := shows.tables_eq selected present
      exact ⟨.created selected present shaped fits, selected_update (by rw [← same]; rfl)⟩
  | @torn name columns database shelf selected present long =>
      have same := shows.tables_eq selected present
      refine ⟨.torn selected present long, fun other current => ?_⟩
      cases selected.symm.trans current
      exact ⟨_, Function.update_self _ _ _, same⟩
  | @removed name database shelf held stored selected present member named found =>
      have same := shows.tables_eq selected present
      obtain ⟨inside, -, called⟩ := stands.held selected found spelled
      obtain rfl : held = stored := (stands.proper database selected).sorted.eq_of_key inside
        (same ▸ member) (by rw [Table.key, Table.key, called, named])
      exact ⟨.removed selected present member named, selected_update (by rw [← same]; rfl)⟩
  | @changed _ name change database shelf table changed changes selected present found done =>
      have same := shows.tables_eq selected present
      obtain ⟨inside, -, called⟩ := stands.held selected found
        (Statement.isName_of_change? spelled changes)
      have key : table.key = changed.key := by
        rw [Table.key, Table.key, (Table.name_of_change changes done).1]
      rw [← same] at inside
      rw [Shelf.save_of_present ⟨table, inside, key⟩]
      exact ⟨.changed changes selected present inside called done,
        selected_update (by rw [← same]; rfl)⟩

end Scene

namespace SessionM

variable {Result : Type} {work : StoreM Result} {disk after : Disk}

theorem onDisk_ok (current : Option Database) {result : Result}
    (done : work disk = .ok result after) :
    onDisk work ⟨current, disk⟩ = .ok result ⟨current, after⟩ := by
  simp [onDisk, done]

theorem onDisk_error (current : Option Database) {error : Error}
    (failed : work disk = .error error after) :
    onDisk work ⟨current, disk⟩ = .error error ⟨current, after⟩ := by
  simp [onDisk, failed]

end SessionM

namespace Session

open Scene

variable {scene : Scene} {store : Store} {top : Location} {disk : Disk} {name : String}

/-- A database of which all tables can be read back is selected, whatever was selected before, and
the disk stays as it is. -/
theorem use_ok (store : Store) (current : Option Database) {world : World} {shelf : Shelf}
    (mirrors : disk.Mirrors store.root top world) (present : world name = some shelf)
    (readable : shelf.Readable) :
    perform store (.use name) ⟨current, disk⟩ = .ok .done ⟨some ⟨name, shelf.tables⟩, disk⟩ := by
  obtain ⟨⟨named, unreserved, fits⟩, -, holds⟩ := mirrors.houses_some present
  have leads := mirrors.leads_database present
  have once := mirrors.tidy (top ++ [name]) (List.prefix_append _ _)
  have allowed : checkName name = .ok () := by simp [checkName, unreserved]
  have loaded := SessionM.onDisk_ok current
    (Store.loadDatabase_ok named leads.toLeads (leads.locate fits.2) holds once readable)
  apply (Work.bind_ok (by rw [allowed]; rfl) _).trans
  exact Work.bind_ok loaded _

theorem use_readable (store : Store) {shelf : Shelf} (shows : scene.Shows store.root top disk)
    (present : scene.world name = some shelf) (readable : shelf.Readable) :
    perform store (.use name) ⟨scene.current, disk⟩ =
      .ok .done ⟨some ⟨name, shelf.tables⟩, disk⟩ :=
  use_ok store scene.current shows.mirrors present readable

/-- A database with a table that cannot be read back is not selected. -/
theorem use_unreadable (store : Store) {shelf : Shelf} (shows : scene.Shows store.root top disk)
    (present : scene.world name = some shelf) (unreadable : ¬ shelf.Readable) :
    ∃ error, perform store (.use name) ⟨scene.current, disk⟩ =
      .error error ⟨scene.current, disk⟩ := by
  obtain ⟨⟨-, unreserved, fits⟩, -, holds⟩ := shows.mirrors.houses_some present
  have leads := shows.mirrors.leads_database present
  have allowed : checkName name = .ok () := by simp [checkName, unreserved]
  obtain ⟨error, unread⟩ :=
    Store.loadDatabase_unreadable leads.toLeads (leads.locate fits.2) holds unreadable
  have failed := SessionM.onDisk_error scene.current unread
  refine ⟨error, (Work.bind_ok (by rw [allowed]; rfl) _).trans ?_⟩
  exact Work.bind_error failed _

/-- A database is made under a name that is free, allowed, and not too long. -/
theorem createDatabase_ok (named : IsName name) (unreserved : isReserved name = false)
    (shows : scene.Shows store.root top disk) (fits : store.root.CanName name)
    (free : scene.world name = none) :
    ∃ after, perform store (.createDatabase name) ⟨scene.current, disk⟩ =
        .ok .done ⟨scene.current, after⟩ ∧
      Shows ⟨scene.current, Function.update scene.world name (some .empty)⟩ store.root top
        after := by
  have allowed : checkName name = .ok () := by simp [checkName, unreserved]
  obtain ⟨after, done, mirrored⟩ :=
    Store.createDatabase_made shows.mirrors named unreserved fits free
  refine ⟨after, ?_, mirrored, ((Drift.made free).step named shows).2⟩
  apply (Work.bind_ok (by rw [allowed]; rfl) _).trans
  exact Work.bind_ok (SessionM.onDisk_ok _ done) _

/-- Every statement that a text spells takes a step of its kind. -/
theorem perform_follows (store : Store) {statement : Statement} (spelled : statement.WellSpelled)
    (shows : scene.Shows store.root top disk) :
    scene.Follows store.root top statement (perform store statement ⟨scene.current, disk⟩) := by
  have drifts := (perform_plan store scene.current spelled).drifts spelled shows.stands
  cases outcome : perform store statement ⟨scene.current, disk⟩ with
  | ok answer space =>
      simp only [outcome] at drifts
      obtain ⟨world, drift, mirrors⟩ := drifts
      obtain ⟨step, selected⟩ := drift.step spelled shows
      exact ⟨world, step, mirrors, selected⟩
  | error error space =>
      simp only [outcome] at drifts
      obtain ⟨world, drift, mirrors⟩ := drifts
      obtain ⟨step, selected⟩ := drift.step spelled shows
      exact ⟨world, step, mirrors, selected⟩

end Session

end TextTables
