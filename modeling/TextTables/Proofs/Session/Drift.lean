import TextTables.Proofs.Session.Effects
import TextTables.Proofs.Store.Copies

/-!
# What statements do to the databases

Without the disk, a session sees the shelves of its store and the database that it has selected.
Where several sessions work on one store, that need not be what is stored. Each statement takes one
step between such scenes, which goes by what the session holds and puts it in the place of what is
stored, or it fails and leaves the scene as it was. Only a table whose second file cannot be named
leaves a stray behind when it fails.
-/

namespace TextTables

open Text Work

/-- The selected database, and the databases of the store. -/
structure Scene where
  current : Option Database
  world : World

namespace Scene

/-- What a statement does when it succeeds with an answer, or fails without one. The selected
database can be an old copy. -/
inductive Drift (root : Path) (scene : Scene) : Statement → Option Answer → Scene → Prop
  | failed (statement : Statement) : Drift root scene statement none scene
  | queried (columns : Selection) (name : String) (condition : Option Condition)
      (result : ResultSet) :
      Drift root scene (.select columns name condition) (some (.table result)) scene
  | joined (first second : String) (firstAttribute secondAttribute : Attribute)
      (result : ResultSet) :
      Drift root scene (.join first second firstAttribute secondAttribute) (some (.table result))
        scene
  | read {name : String} {shelf : Shelf} (present : scene.world name = some shelf)
      (readable : shelf.Readable) :
      Drift root scene (.use name) (some .done) { scene with current := some ⟨name, shelf.tables⟩ }
  | made {name : String} (free : scene.world name = none) :
      Drift root scene (.createDatabase name) (some .done)
        { scene with world := Function.update scene.world name (some .empty) }
  | dropped {name : String} {shelf : Shelf} (present : scene.world name = some shelf) :
      Drift root scene (.dropDatabase name) (some .done)
        ⟨scene.current.filter fun database => database.name ≠ name,
          Function.update scene.world name none⟩
  | created {name : String} {columns : List String} {database : Database} {shelf : Shelf}
      {table : Table} (selected : scene.current = some database)
      (present : scene.world database.name = some shelf)
      (shaped : Table.withColumns name columns = .ok table)
      (free : ∀ other ∈ database.tables, other.key ≠ table.key)
      (fresh : ∀ other ∈ shelf.tables, other.key ≠ table.key)
      (fits : (root.join database.name).CanName (name ++ counterEnding)) :
      Drift root scene (.createTable name columns) (some .done)
        ⟨some { database with tables := Database.place table database.tables },
          Function.update scene.world database.name (some (shelf.insert table))⟩
  | torn {name : String} {columns : List String} {database : Database} {shelf : Shelf}
      (selected : scene.current = some database)
      (present : scene.world database.name = some shelf)
      (long : ¬ (root.join database.name).CanName (name ++ counterEnding)) :
      Drift root scene (.createTable name columns) none
        { scene with world := Function.update scene.world database.name (some (shelf.strand name)) }
  | removed {name : String} {database : Database} {shelf : Shelf} {held stored : Table}
      (selected : scene.current = some database)
      (present : scene.world database.name = some shelf) (member : stored ∈ shelf.tables)
      (named : stored.name = name) (found : database.table name = .ok held) :
      Drift root scene (.dropTable name) (some .done)
        ⟨some { database with
            tables := database.tables.filter fun other => other.key != held.key },
          Function.update scene.world database.name (some (shelf.remove stored))⟩
  | changed {statement : Statement} {name : String} {change : Table → Except SchemaError Table}
      {database : Database} {shelf : Shelf} {table changed : Table}
      (changes : statement.change? = some (name, change))
      (selected : scene.current = some database)
      (present : scene.world database.name = some shelf)
      (found : database.table name = .ok table) (done : change table = .ok changed) :
      Drift root scene statement (some .done)
        ⟨some (database.update changed),
          Function.update scene.world database.name (some (shelf.save changed))⟩

/-- What a statement can make of the databases of a store, whatever the session holds. -/
inductive Move (root : Path) (world : World) : Statement → Option Answer → World → Prop
  | stays (statement : Statement) (answer : Option Answer) : Move root world statement answer world
  | made (name : String) (answer : Option Answer) :
      Move root world (.createDatabase name) answer (Function.update world name (some .empty))
  | dropped {name : String} {shelf : Shelf} (present : world name = some shelf) :
      Move root world (.dropDatabase name) (some .done) (Function.update world name none)
  | put {statement : Statement} {answer : Option Answer} {name : String} {shelf changed : Shelf}
      (present : world name = some shelf) (strays : changed.strays = shelf.strays) :
      Move root world statement answer (Function.update world name (some changed))
  | torn {name table : String} {columns : List String} {answer : Option Answer} {shelf : Shelf}
      (present : world name = some shelf)
      (long : ¬ (root.join name).CanName (table ++ counterEnding)) :
      Move root world (.createTable table columns) answer
        (Function.update world name (some (shelf.strand table)))

theorem Drift.move {root : Path} {scene next : Scene} {statement : Statement}
    {answer : Option Answer} (drift : scene.Drift root statement answer next) :
    Move root scene.world statement answer next.world := by
  cases drift with
  | failed | queried | joined | read => exact .stays _ _
  | made free => exact .made _ _
  | dropped present => exact .dropped present
  | created selected present => exact .put present rfl
  | torn selected present long => exact .torn present long
  | removed selected present => exact .put present rfl
  | changed changes selected present => exact .put present Shelf.strays_save

/-- The disk holds the databases that are stored, and the selected database is held properly. -/
structure Stands (scene : Scene) (root : Path) (top : Location) (disk : Disk) : Prop where
  mirrors : disk.Mirrors root top scene.world
  proper : ∀ database, scene.current = some database → database.Proper root

variable {root : Path} {top : Location} {scene next : Scene} {disk : Disk}
  {statement : Statement} {answer : Option Answer}

/-- A table of a proper copy is sound, and called as its key says. -/
theorem Stands.held (stands : scene.Stands root top disk) {database : Database} {name : String}
    {table : Table} (selected : scene.current = some database)
    (found : database.table name = .ok table) (named : IsName name) :
    table ∈ database.tables ∧ table.Sound ∧ table.name = name := by
  obtain ⟨member, key⟩ := Database.table_eq_ok found
  have sound := (stands.proper database selected).sound table member
  refine ⟨member, sound, ?_⟩
  rw [← sound.key, key, named.lower]

/-- Sessions hold proper copies, whatever they do. -/
theorem Drift.proper (drift : scene.Drift root statement answer next)
    (spelled : statement.WellSpelled) (stands : scene.Stands root top disk) :
    ∀ database, next.current = some database → database.Proper root := by
  intro final now
  cases drift with
  | failed | queried | joined | made | torn => exact stands.proper final now
  | read present readable =>
      cases now
      obtain ⟨⟨named, -, -⟩, -, holds⟩ := stands.mirrors.houses_some present
      exact ⟨named, holds.sorted, holds.sound, holds.fits⟩
  | dropped present => exact stands.proper final (Option.filter_eq_some_iff.mp now).1
  | @created name columns database shelf table selected present shaped free fresh fits =>
      cases now
      obtain ⟨sound, called, -⟩ := Table.Sound.withColumns spelled.1 spelled.2 shaped
      have before := stands.proper database selected
      refine ⟨before.named, before.sorted.place free, fun other member => ?_, fun other member => ?_⟩
      · rcases Database.mem_place.mp member with rfl | old
        · exact sound
        · exact before.sound other old
      · rcases Database.mem_place.mp member with rfl | old
        · exact called ▸ fits
        · exact before.fits other old
  | @removed name database shelf held stored selected present member named found =>
      cases now
      have before := stands.proper database selected
      exact ⟨before.named, before.sorted.sublist List.filter_sublist,
        fun other member => before.sound other (List.mem_of_mem_filter member),
        fun other member => before.fits other (List.mem_of_mem_filter member)⟩
  | @changed _ name change database shelf table changed changes selected present found done =>
      cases now
      have before := stands.proper database selected
      obtain ⟨inside, sound, -⟩ := stands.held selected found
        (Statement.isName_of_change? spelled changes)
      have soundChanged := sound.of_change spelled changes done
      have called := (Table.name_of_change changes done).1
      have old : ∃ old ∈ database.tables, old.key = changed.key :=
        ⟨table, inside, by rw [sound.key, soundChanged.key, called]⟩
      refine ⟨before.named, before.sorted.update changed, fun other member => ?_,
        fun other member => ?_⟩
      · rcases (Database.mem_update old).mp member with rfl | ⟨earlier, -⟩
        · exact soundChanged
        · exact before.sound other earlier
      · rcases (Database.mem_update old).mp member with rfl | ⟨earlier, -⟩
        · exact called ▸ before.fits table inside
        · exact before.fits other earlier

end Scene

namespace Session

open Scene

/-- The outcome is a step of the statement, to a scene that stands on the disk again. -/
def Drifts (scene : Scene) (root : Path) (top : Location) (statement : Statement) :
    EStateM.Result Error Workspace Answer → Prop
  | .ok answer space => ∃ world, scene.Drift root statement (some answer) ⟨space.current, world⟩ ∧
      space.disk.Mirrors root top world
  | .error _ space => ∃ world, scene.Drift root statement none ⟨space.current, world⟩ ∧
      space.disk.Mirrors root top world

variable {store : Store} {top : Location} {current : Option Database} {world : World} {disk : Disk}
  {statement : Statement} {outcome : Disk → EStateM.Result Error Workspace Answer}

/-- Work that fails and leaves the disk as it is changes nothing. -/
theorem drifts_of_error {Result : Type} {result : EStateM.Result Error Disk Result}
    (mirrors : disk.Mirrors store.root top world) {taken : Result → Option Database}
    (failed : ∃ error, result = .error error disk) :
    Drifts ⟨current, world⟩ store.root top statement (conclude current taken result) := by
  obtain ⟨error, rfl⟩ := failed
  exact ⟨world, .failed statement, mirrors⟩

/-- Every plan is carried out by a step that goes by what the session holds. -/
theorem Plan.drifts (plan : Plan store current statement outcome) (spelled : statement.WellSpelled)
    (stands : Scene.Stands ⟨current, world⟩ store.root top disk) :
    Drifts ⟨current, world⟩ store.root top statement (outcome disk) := by
  have mirrors := stands.mirrors
  cases plan with
  | refused statement error => exact ⟨world, .failed statement, mirrors⟩
  | queried columns name condition result => exact ⟨world, .queried _ _ _ _, mirrors⟩
  | joined => exact ⟨world, .joined _ _ _ _ _, mirrors⟩
  | used name =>
      rcases Store.loadDatabase_mirrors mirrors spelled with
        failed | ⟨shelf, present, readable, done⟩
      · exact drifts_of_error mirrors failed
      · dsimp only
        rw [done]
        exact ⟨world, .read present readable, mirrors⟩
  | @made name allowed =>
      rcases Store.createDatabase_mirrors mirrors spelled (checkName_eq_ok_iff.mp allowed) with
        failed | ⟨after, free, done, mirrored⟩
      · exact drifts_of_error mirrors failed
      · dsimp only
        rw [done]
        exact ⟨_, .made free, mirrored⟩
  | dropped name =>
      rcases Store.dropDatabase_mirrors mirrors spelled with
        failed | ⟨shelf, after, present, done, mirrored⟩
      · exact drifts_of_error mirrors failed
      · dsimp only
        rw [done]
        exact ⟨_, .dropped present, mirrored⟩
  | @created name columns database table selected shaped free =>
      obtain ⟨sound, called, -⟩ := Table.Sound.withColumns spelled.1 spelled.2 shaped
      have named := (stands.proper database selected).named
      rcases Store.createTable_mirrors mirrors named sound with
        failed | ⟨shelf, error, after, present, long, failed, mirrored⟩ |
          ⟨shelf, after, present, fresh, fits, done, mirrored⟩
      · exact drifts_of_error mirrors failed
      · dsimp only
        rw [failed]
        rw [called] at long mirrored
        exact ⟨_, .torn selected present long, mirrored⟩
      · dsimp only
        rw [done]
        rw [called] at fits
        exact ⟨_, .created selected present shaped free fresh fits, mirrored⟩
  | @removed name database table selected found =>
      have proper := stands.proper database selected
      obtain ⟨inside, -, called⟩ := stands.held selected found spelled
      have fits := proper.fits table inside
      rw [called] at fits
      rcases Store.deleteTable_mirrors mirrors proper.named spelled fits with
        failed | ⟨shelf, stored, after, present, member, named, done, mirrored⟩
      · exact drifts_of_error mirrors failed
      · dsimp only
        rw [done]
        exact ⟨_, .removed selected present member named found, mirrored⟩
  | @changed _ name change database table changed changes selected found done =>
      have proper := stands.proper database selected
      obtain ⟨inside, sound, -⟩ := stands.held selected found
        (Statement.isName_of_change? spelled changes)
      have fits := proper.fits table inside
      rw [← (Table.name_of_change changes done).1] at fits
      rcases Store.saveTable_mirrors mirrors proper.named (sound.of_change spelled changes done)
          fits with failed | ⟨shelf, after, present, saved, mirrored⟩
      · exact drifts_of_error mirrors failed
      · dsimp only
        rw [saved]
        exact ⟨_, .changed changes selected present found done, mirrored⟩

end Session

end TextTables
