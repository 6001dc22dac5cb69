import TextTables.Proofs.Session.Steps

/-!
# Runs of a session

A session executes commands one after the other. Each one that is read takes a step between the
scenes of the session, and the disk shows the last scene as it showed the first.
-/

namespace TextTables

namespace Session

/-- Executes commands one after the other, and collects them with their responses. -/
def executeAll (session : Session) (disk : Disk) :
    List String → List (String × Response) × Session × Disk
  | [] => ([], session, disk)
  | command :: rest =>
      let (response, next, after) := session.execute command disk
      let (exchanges, last, final) := executeAll next after rest
      ((command, response) :: exchanges, last, final)

end Session

/-- The answer, if the command did not fail. -/
def Response.answer? : Response → Option Answer
  | answered answer => some answer
  | failed _ _ => none

namespace Scene

/-- A session that has just been opened on a new store sees no databases. -/
def fresh : Scene := ⟨none, fun _ => none⟩

/-- A command is refused by the reader and changes nothing, or its statement takes a step. -/
def Turn (root : Path) (scene : Scene) (exchange : String × Response) (next : Scene) : Prop :=
  match Statement.parse exchange.1 with
  | .error _ => exchange.2.answer? = none ∧ next = scene
  | .ok statement => statement.WellSpelled ∧ scene.Step root statement exchange.2.answer? next

/-- The scenes that exchanges lead to. -/
inductive Run (root : Path) : Scene → List (String × Response) → Scene → Prop
  | nil (scene : Scene) : Run root scene [] scene
  | cons {scene next last : Scene} {exchange : String × Response}
      {exchanges : List (String × Response)} (turn : scene.Turn root exchange next)
      (rest : Run root next exchanges last) : Run root scene (exchange :: exchanges) last

variable {root : Path} {scene next last : Scene} {exchange : String × Response}
  {exchanges : List (String × Response)}

theorem Turn.cases (turn : scene.Turn root exchange next) :
    next = scene ∨ ∃ statement, Statement.parse exchange.1 = .ok statement ∧
      statement.WellSpelled ∧ scene.Step root statement exchange.2.answer? next := by
  unfold Turn at turn
  cases read : Statement.parse exchange.1 with
  | error error =>
      rw [read] at turn
      exact .inl turn.2
  | ok statement =>
      rw [read] at turn
      exact .inr ⟨statement, rfl, turn⟩

/-- What each step of the run keeps up, the run keeps up. -/
theorem Run.preserves (property : Scene → Prop) (run : Run root scene exchanges last)
    (step : ∀ exchange ∈ exchanges, ∀ statement, Statement.parse exchange.1 = .ok statement →
      statement.WellSpelled → ∀ scene next,
        Step root scene statement exchange.2.answer? next → property scene → property next)
    (start : property scene) : property last := by
  induction run with
  | nil => exact start
  | @cons scene next last exchange exchanges turn rest inductionHypothesis =>
      apply inductionHypothesis fun other member => step other (List.mem_cons_of_mem _ member)
      rcases turn.cases with rfl | ⟨statement, reads, spelled, taken⟩
      · exact start
      · exact step exchange List.mem_cons_self statement reads spelled scene next taken start

end Scene

namespace Session

open Scene

theorem executeAll_append (session : Session) (disk : Disk) (first second : List String) :
    session.executeAll disk (first ++ second) =
      let (exchanges, next, after) := session.executeAll disk first
      let (others, last, final) := next.executeAll after second
      (exchanges ++ others, last, final) := by
  induction first generalizing session disk with
  | nil => rfl
  | cons command rest inductionHypothesis =>
      simp only [List.cons_append, executeAll, inductionHypothesis]

/-- What each command keeps up, whatever it is, a run keeps up. -/
theorem executeAll_preserves (property : Session → Disk → Prop)
    (step : ∀ session disk command, property session disk →
      property (session.execute command disk).2.1 (session.execute command disk).2.2)
    {session : Session} {disk : Disk} (start : property session disk) (commands : List String) :
    property (session.executeAll disk commands).2.1 (session.executeAll disk commands).2.2 := by
  induction commands generalizing session disk with
  | nil => exact start
  | cons command rest inductionHypothesis =>
      exact inductionHypothesis (step session disk command start)

/-- Texts that are read alike are executed alike. -/
theorem execute_congr {first second : String} (session : Session) (disk : Disk)
    (alike : Statement.parse first = Statement.parse second) :
    session.execute first disk = session.execute second disk := by
  unfold execute
  rw [alike]

theorem executeAll_congr {commands texts : List String} (session : Session) (disk : Disk)
    (alike : List.Forall₂ (fun text command => Statement.parse text = Statement.parse command)
      texts commands) :
    (session.executeAll disk texts).2 = (session.executeAll disk commands).2 := by
  induction alike generalizing session disk with
  | nil => rfl
  | cons first others inductionHypothesis =>
      simp only [executeAll, execute_congr session disk first]
      exact inductionHypothesis _ _

theorem map_fst_executeAll (session : Session) (disk : Disk) (commands : List String) :
    (session.executeAll disk commands).1.map Prod.fst = commands := by
  induction commands generalizing session disk with
  | nil => rfl
  | cons command rest inductionHypothesis =>
      simp only [executeAll, List.map_cons]
      rw [inductionHypothesis]

/-- A command takes the scene to one that the disk shows. -/
theorem execute_turn {session next : Session} {world : World} {top : Location}
    {disk after : Disk} {command : String} {response : Response}
    (executed : session.execute command disk = (response, next, after))
    (shows : Shows ⟨session.current, world⟩ session.store.root top disk) :
    ∃ other, next.store = session.store ∧
      Turn session.store.root ⟨session.current, world⟩ (command, response)
        ⟨next.current, other⟩ ∧
      Shows ⟨next.current, other⟩ session.store.root top after := by
  unfold Turn
  unfold execute at executed
  cases read : Statement.parse command with
  | error error =>
      rw [read] at executed
      cases executed
      exact ⟨world, rfl, ⟨rfl, rfl⟩, shows⟩
  | ok statement =>
      have spelled := Statement.wellSpelled_of_parse read
      have follows := perform_follows session.store spelled shows
      rw [read] at executed
      dsimp only at executed follows ⊢
      cases outcome : perform session.store statement ⟨session.current, disk⟩ with
      | ok answer space =>
          rw [outcome] at executed follows
          cases executed
          obtain ⟨other, step, shown⟩ := follows
          exact ⟨other, rfl, ⟨spelled, step⟩, shown⟩
      | error error space =>
          rw [outcome] at executed follows
          cases executed
          obtain ⟨other, step, shown⟩ := follows
          exact ⟨other, rfl, ⟨spelled, step⟩, shown⟩

theorem executeAll_run (session : Session) {world : World} {top : Location} {disk : Disk}
    (shows : Shows ⟨session.current, world⟩ session.store.root top disk)
    (commands : List String) :
    ∃ other, (session.executeAll disk commands).2.1.store = session.store ∧
      Run session.store.root ⟨session.current, world⟩ (session.executeAll disk commands).1
        ⟨(session.executeAll disk commands).2.1.current, other⟩ ∧
      Shows ⟨(session.executeAll disk commands).2.1.current, other⟩ session.store.root top
        (session.executeAll disk commands).2.2 := by
  induction commands generalizing session world disk with
  | nil => exact ⟨world, rfl, .nil _, shows⟩
  | cons command rest inductionHypothesis =>
      cases executed : session.execute command disk with
      | mk response others =>
          obtain ⟨next, after⟩ := others
          obtain ⟨middle, store, turn, shown⟩ := execute_turn executed shows
          rw [← store] at shown
          obtain ⟨other, kept, run, final⟩ := inductionHypothesis next shown
          rw [store] at run final
          simp only [executeAll, executed]
          exact ⟨other, kept.trans store, .cons turn run, final⟩

end Session

end TextTables
