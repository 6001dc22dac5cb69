import TextTables.Proofs.Session.Coherence
import TextTables.Proofs.Session.Sharing

/-!
# Interleaved runs

Sessions on one store take turns, in any order. Each goes by its own copy of a database, so that a
run is a list of steps between what all of them hold and what is stored.
-/

namespace TextTables

open Text

namespace Scene

variable {root : Path} {scene next : Scene} {statement : Statement} {answer : Option Answer}
  {name : String}

/-- A command is refused by the reader and changes nothing, or its statement takes a step. -/
def Shift (root : Path) (scene : Scene) (exchange : String × Response) (next : Scene) : Prop :=
  match Statement.parse exchange.1 with
  | .error _ => exchange.2.answer? = none ∧ next = scene
  | .ok statement => statement.WellSpelled ∧ scene.Drift root statement exchange.2.answer? next

theorem Shift.cases {exchange : String × Response}
    (shift : scene.Shift root exchange next) :
    ((∃ error, Statement.parse exchange.1 = .error error) ∧ next = scene) ∨
      ∃ statement, Statement.parse exchange.1 = .ok statement ∧ statement.WellSpelled ∧
        scene.Drift root statement exchange.2.answer? next := by
  unfold Shift at shift
  cases read : Statement.parse exchange.1 with
  | error error =>
      rw [read] at shift
      exact .inl ⟨⟨error, rfl⟩, shift.2⟩
  | ok statement =>
      rw [read] at shift
      exact .inr ⟨statement, rfl, shift⟩

/-- No table that is held has given out more keys than the bound. -/
def HoldsBelow (scene : Scene) (bound : Nat) : Prop :=
  ∀ database, scene.current = some database → ∀ table ∈ database.tables, table.lastKey ≤ bound

theorem HoldsBelow.weaken {bound other : Nat} (below : scene.HoldsBelow bound)
    (wider : bound ≤ other) : scene.HoldsBelow other :=
  fun database selected table member => (below database selected table member).trans wider

theorem Drift.bounded {bound : Nat} (drift : scene.Drift root statement answer next)
    (spelled : statement.WellSpelled) (bounded : scene.Bounded bound)
    (below : scene.HoldsBelow bound) :
    next.Bounded (bound + statement.insertions) ∧
      next.HoldsBelow (bound + statement.insertions) := by
  have wider := bounded.weaken (Nat.le_add_right bound statement.insertions)
  have widerBelow := below.weaken (Nat.le_add_right bound statement.insertions)
  cases drift with
  | failed | queried | joined => exact ⟨wider, widerBelow⟩
  | read present readable =>
      refine ⟨wider, fun database selected table member => ?_⟩
      cases selected
      exact wider _ _ present table member
  | made free =>
      refine ⟨forall_update wider fun shelf same table member => ?_, widerBelow⟩
      cases same
      simp [Shelf.empty] at member
  | dropped present =>
      refine ⟨forall_update wider fun shelf same => ?_, fun database selected => ?_⟩
      · cases same
      · exact widerBelow database (Option.filter_eq_some_iff.mp selected).1
  | created selected present shaped free fresh fits =>
      have small := (Table.Sound.withColumns spelled.1 spelled.2 shaped).2.2
      refine ⟨forall_update wider fun shelf same table member => ?_,
        fun database same table member => ?_⟩
      · cases same
        rcases Database.mem_place.mp member with rfl | old
        · exact small ▸ Nat.zero_le _
        · exact wider _ _ present table old
      · cases same
        rcases Database.mem_place.mp member with rfl | old
        · exact small ▸ Nat.zero_le _
        · exact widerBelow _ selected table old
  | torn selected present long =>
      refine ⟨forall_update wider fun shelf same table member => ?_, widerBelow⟩
      cases same
      exact wider _ _ present table member
  | removed selected present inside named found =>
      refine ⟨forall_update wider fun shelf same table member => ?_,
        fun database same table member => ?_⟩
      · cases same
        exact wider _ _ present table (List.mem_of_mem_filter member)
      · cases same
        exact widerBelow _ selected table (List.mem_of_mem_filter member)
  | @changed _ name change database shelf table changed changes selected present found done =>
      have here : changed.lastKey ≤ bound + statement.insertions := by
        rw [(Table.name_of_change changes done).2]
        exact Nat.add_le_add_right (below _ selected table (Database.table_eq_ok found).1) _
      refine ⟨forall_update wider fun shelf same other member => ?_,
        fun final same other member => ?_⟩
      · cases same
        rcases Shelf.mem_save.mp member with rfl | ⟨old, -⟩
        · exact here
        · exact wider _ _ present other old
      · cases same
        obtain ⟨old, inside, shape⟩ := List.mem_map.mp member
        split at shape
        · exact shape ▸ here
        · exact shape ▸ widerBelow _ selected old inside

theorem Shift.bounded {exchange : String × Response} {bound : Nat}
    (shift : scene.Shift root exchange next) (bounded : scene.Bounded bound)
    (below : scene.HoldsBelow bound) :
    next.Bounded (bound + insertionsOf exchange.1) ∧
      next.HoldsBelow (bound + insertionsOf exchange.1) := by
  rcases shift.cases with ⟨-, rfl⟩ | ⟨statement, reads, spelled, drift⟩
  · have wider := Nat.le_add_right bound (insertionsOf exchange.1)
    exact ⟨bounded.weaken wider, below.weaken wider⟩
  · unfold insertionsOf
    rw [reads]
    exact drift.bounded spelled bounded below

end Scene

namespace Session

open Scene

theorem execute_shift {session next : Session} {command : String} {response : Response}
    {top : Location} {world : World} {disk after : Disk}
    (executed : session.execute command disk = (response, next, after))
    (stands : Stands ⟨session.current, world⟩ session.store.root top disk) :
    next.store = session.store ∧
      ∃ other, Stands ⟨next.current, other⟩ session.store.root top after ∧
        Shift session.store.root ⟨session.current, world⟩ (command, response)
          ⟨next.current, other⟩ := by
  unfold Shift
  cases reads : Statement.parse command with
  | error error =>
      simp only [execute, reads] at executed
      cases executed
      exact ⟨rfl, world, stands, rfl, rfl⟩
  | ok statement =>
      have spelled := Statement.wellSpelled_of_parse reads
      obtain ⟨outcome, plan, same⟩ := execute_plan session reads
      have drifts := plan.drifts spelled stands
      rw [same] at executed
      cases result : outcome disk with
      | ok answer space =>
          rw [result] at executed drifts
          cases executed
          obtain ⟨other, drift, mirrors⟩ := drifts
          exact ⟨rfl, other, ⟨mirrors, drift.proper spelled stands⟩, spelled, drift⟩
      | error error space =>
          rw [result] at executed drifts
          cases executed
          obtain ⟨other, drift, mirrors⟩ := drifts
          exact ⟨rfl, other, ⟨mirrors, drift.proper spelled stands⟩, spelled, drift⟩

/-- The disk holds the databases that are stored, and every session on the store a proper copy. -/
structure Crowd {Owner : Type} (root : Path) (top : Location) (sessions : Owner → Session)
    (world : World) (disk : Disk) : Prop where
  mirrors : disk.Mirrors root top world
  store : ∀ owner, (sessions owner).store = ⟨root⟩
  proper : ∀ owner database, (sessions owner).current = some database → database.Proper root

theorem Crowd.stands {Owner : Type} {root : Path} {top : Location} {sessions : Owner → Session}
    {world : World} {disk : Disk} (crowd : Crowd root top sessions world disk) (owner : Owner) :
    Scene.Stands ⟨(sessions owner).current, world⟩ root top disk :=
  ⟨crowd.mirrors, crowd.proper owner⟩

end Session

variable {Owner : Type} [DecidableEq Owner] {root : Path} {top : Location} {disk : Disk}
  {copies middle last : Owner → Option Database} {world between final : World}
  {exchanges others : List (Owner × String × Response)}

/-- What sessions hold and what is stored, from turn to turn. -/
inductive Interleaving (root : Path) (top : Location) :
    (Owner → Option Database) → World → List (Owner × String × Response) →
      (Owner → Option Database) → World → Prop
  | nil (copies : Owner → Option Database) (world : World) :
      Interleaving root top copies world [] copies world
  | cons {copies last : Owner → Option Database} {world other final : World} {owner : Owner}
      {next : Option Database} {exchange : String × Response} {disk : Disk}
      {exchanges : List (Owner × String × Response)}
      (stands : Scene.Stands ⟨copies owner, world⟩ root top disk)
      (shift : Scene.Shift root ⟨copies owner, world⟩ exchange ⟨next, other⟩)
      (rest : Interleaving root top (Function.update copies owner next) other exchanges last final) :
      Interleaving root top copies world ((owner, exchange) :: exchanges) last final

namespace Interleaving

theorem append (first : Interleaving root top copies world exchanges middle between)
    (second : Interleaving root top middle between others last final) :
    Interleaving root top copies world (exchanges ++ others) last final := by
  induction first with
  | nil => exact second
  | cons stands shift rest inductionHypothesis => exact .cons stands shift (inductionHypothesis second)

/-- What each turn keeps up while a note is taken of it holds after all turns. -/
theorem preserves {Note : Type} (take : Note → Owner × String × Response → Note)
    (property : Note → (Owner → Option Database) → World → Prop)
    (run : Interleaving root top copies world exchanges last final)
    (turn : ∀ owner exchange, (owner, exchange) ∈ exchanges → ∀ note copies world next other disk,
      Scene.Stands ⟨copies owner, world⟩ root top disk →
      Scene.Shift root ⟨copies owner, world⟩ exchange ⟨next, other⟩ → property note copies world →
      property (take note (owner, exchange)) (Function.update copies owner next) other)
    (note : Note) (start : property note copies world) :
    property (exchanges.foldl take note) last final := by
  induction run generalizing note with
  | nil => exact start
  | cons stands shift rest inductionHypothesis =>
      apply inductionHypothesis fun owner exchange member =>
        turn owner exchange (List.mem_cons_of_mem _ member)
      exact turn _ _ List.mem_cons_self _ _ _ _ _ _ stands shift start

/-- The commands of the turns, whoever gave them. -/
def commands (exchanges : List (Owner × String × Response)) : List String :=
  exchanges.map fun exchange => exchange.2.1

/-- No table has given out more keys than there were insertions, by all sessions together. -/
theorem bounded (run : Interleaving root top (fun _ => none) (fun _ => none) exchanges last final) :
    Scene.Bounded ⟨none, final⟩ (insertions (commands exchanges)) := by
  have counted : exchanges.foldl (fun bound exchange => bound + insertionsOf exchange.2.1) 0 =
      insertions (commands exchanges) := by
    rw [insertions, commands, List.map_map, List.sum_eq_foldl, List.foldl_map]
    rfl
  rw [← counted]
  apply And.left
  apply run.preserves _ (fun bound copies world => Scene.Bounded ⟨none, world⟩ bound ∧
    ∀ owner, Scene.HoldsBelow ⟨copies owner, world⟩ bound)
  · rintro owner exchange - bound copies world next other disk - shift ⟨bounded, below⟩
    obtain ⟨after, here⟩ := shift.bounded bounded (below owner)
    refine ⟨after, ?_⟩
    rw [Function.forall_update_iff copies fun _ current => Scene.HoldsBelow ⟨current, other⟩ _]
    exact ⟨here, fun another _ => (below another).weaken (Nat.le_add_right _ _)⟩
  · exact ⟨Scene.bounded_fresh, fun owner database selected => by cases selected⟩

/-- As long as tables have room, no table file is left without its second one. -/
theorem whole (run : Interleaving root top (fun _ => none) (fun _ => none) exchanges last final)
    (room : ∀ name table, MakesDatabase (commands exchanges) name →
      MakesTable (commands exchanges) table → (root.join name).CanName (table ++ counterEnding)) :
    Scene.Whole ⟨none, final⟩ := by
  apply And.left
  refine run.preserves (fun _ _ => ()) (fun _ _ world => Scene.Whole ⟨none, world⟩ ∧
    ∀ name, world name ≠ none → MakesDatabase (commands exchanges) name) ?_ () ?_
  · rintro owner exchange member - copies world next other disk - shift ⟨whole, known⟩
    have asked : exchange.1 ∈ commands exchanges := List.mem_map_of_mem member
    rcases shift.cases with ⟨-, same⟩ | ⟨statement, reads, -, drift⟩
    · cases same
      exact ⟨whole, known⟩
    · constructor
      · refine drift.move.whole (fun table columns asks name present => ?_) whole
        exact room name table (known name present) ⟨exchange.1, asked, columns, by rw [reads, asks]⟩
      · intro name there
        rcases drift.move.present there with present | asks
        · exact known name present
        · exact ⟨exchange.1, asked, by rw [reads, asks]⟩
  · exact ⟨Scene.whole_fresh, fun name present => absurd rfl present⟩

/-- With room for all names and keys enough, every database can be read back at the end. -/
theorem readable (run : Interleaving root top (fun _ => none) (fun _ => none) exchanges last final)
    (room : ∀ name table, MakesDatabase (commands exchanges) name →
      MakesTable (commands exchanges) table → (root.join name).CanName (table ++ counterEnding))
    (few : insertions (commands exchanges) < UInt64.size) {name : String} {shelf : Shelf}
    (present : final name = some shelf) : shelf.Readable where
  noStrays := run.whole room name shelf present
  short table member := Nat.lt_of_le_of_lt (run.bounded name shelf present table member) few

end Interleaving

namespace Session

variable {sessions : Owner → Session}

/-- A turn of one session leaves the copies of the others. -/
theorem Crowd.turn (crowd : Crowd root top sessions world disk) {owner : Owner} {command : String}
    {response : Response} {next : Session} {after : Disk}
    (executed : (sessions owner).execute command disk = (response, next, after)) :
    ∃ other, Crowd root top (Function.update sessions owner next) other after ∧
      Scene.Shift root ⟨(sessions owner).current, world⟩ (command, response)
        ⟨next.current, other⟩ := by
  have stands := crowd.stands owner
  have moved := execute_shift executed (by rwa [crowd.store owner])
  rw [crowd.store owner] at moved
  obtain ⟨store, other, standsAfter, shift⟩ := moved
  refine ⟨other, ⟨standsAfter.mirrors, ?_, ?_⟩, shift⟩
  · rw [Function.forall_update_iff sessions fun _ session => session.store = _]
    exact ⟨store, fun another _ => crowd.store another⟩
  · rw [Function.forall_update_iff sessions fun _ session =>
      ∀ database, session.current = some database → database.Proper root]
    exact ⟨standsAfter.proper, fun another _ => crowd.proper another⟩

theorem current_update (sessions : Owner → Session) (owner : Owner) (next : Session) :
    (fun other => (Function.update sessions owner next other).current) =
      Function.update (fun other => (sessions other).current) owner next.current := by
  funext other
  by_cases here : other = owner
  · subst here
    simp
  · simp [here]

theorem Crowd.executeShared (crowd : Crowd root top sessions world disk)
    (turns : List (Owner × String)) :
    ∃ other, Crowd root top (executeShared sessions disk turns).2.1 other
        (executeShared sessions disk turns).2.2 ∧
      Interleaving root top (fun owner => (sessions owner).current) world
        (executeShared sessions disk turns).1
        (fun owner => ((executeShared sessions disk turns).2.1 owner).current) other := by
  induction turns generalizing sessions world disk with
  | nil => exact ⟨world, crowd, .nil _ _⟩
  | cons turn rest inductionHypothesis =>
      obtain ⟨owner, command⟩ := turn
      cases executed : (sessions owner).execute command disk with
      | mk response outcome =>
          obtain ⟨next, after⟩ := outcome
          obtain ⟨middle, crowdAfter, shift⟩ := crowd.turn executed
          obtain ⟨other, crowdLast, run⟩ := inductionHypothesis crowdAfter
          rw [current_update] at run
          simp only [Session.executeShared, executed]
          exact ⟨other, crowdLast, .cons (crowd.stands owner) shift run⟩

theorem commands_executeShared (sessions : Owner → Session) (disk : Disk)
    (turns : List (Owner × String)) :
    Interleaving.commands (executeShared sessions disk turns).1 = turns.map Prod.snd := by
  induction turns generalizing sessions disk with
  | nil => rfl
  | cons turn rest inductionHypothesis =>
      obtain ⟨owner, command⟩ := turn
      exact congrArg _ (inductionHypothesis _ _)

end Session

end TextTables
