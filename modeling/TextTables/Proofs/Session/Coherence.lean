import TextTables.Proofs.Session.Losses

/-!
# Memory and disk agree

In a run from a new store, what is selected in memory is at all times what the disk would be read
back as, so that closing the session and opening it again loses nothing. It takes table names of
which both files have room in the directories of the run, and fewer insertions than there are
primary keys.
-/

namespace TextTables

open Text

/-- One of the commands asks for a database of the name. -/
def MakesDatabase (commands : List String) (name : String) : Prop :=
  ∃ command ∈ commands, Statement.parse command = .ok (.createDatabase name)

/-- One of the commands asks for a table of the name. -/
def MakesTable (commands : List String) (name : String) : Prop :=
  ∃ command ∈ commands, ∃ columns, Statement.parse command = .ok (.createTable name columns)

/-- The number of primary keys that a command asks for. -/
def insertionsOf (command : String) : Nat :=
  match Statement.parse command with
  | .ok statement => statement.insertions
  | .error _ => 0

def insertions (commands : List String) : Nat :=
  (commands.map insertionsOf).sum

namespace Scene

/-- No table has given out more keys than the bound. -/
def Bounded (scene : Scene) (bound : Nat) : Prop :=
  ∀ name shelf, scene.world name = some shelf → ∀ table ∈ shelf.tables, table.lastKey ≤ bound

/-- No table file stands without its second file. -/
def Whole (scene : Scene) : Prop :=
  ∀ name shelf, scene.world name = some shelf → shelf.strays = []

/-- Both files of a table of the name have room in all directories of the scene. -/
def HasRoom (scene : Scene) (root : Path) (table : String) : Prop :=
  ∀ name, scene.world name ≠ none → (root.join name).CanName (table ++ counterEnding)

variable {root : Path} {scene next last : Scene} {statement : Statement} {answer : Option Answer}
  {exchanges : List (String × Response)} {name : String} {shelf : Shelf}

theorem bounded_fresh : fresh.Bounded 0 := by
  intro name shelf present
  cases present

theorem whole_fresh : fresh.Whole := by
  intro name shelf present
  cases present

theorem Bounded.weaken {bound other : Nat} (bounded : scene.Bounded bound) (below : bound ≤ other) :
    scene.Bounded other := by
  intro name shelf present table member
  exact Nat.le_trans (bounded name shelf present table member) below

/-- What holds of all shelves still does if it does of the one that is changed. -/
theorem forall_update {property : Shelf → Prop} {world : World} {name : String}
    {content : Option Shelf} (before : ∀ other shelf, world other = some shelf → property shelf)
    (here : ∀ shelf, content = some shelf → property shelf) :
    ∀ other shelf, Function.update world name content other = some shelf → property shelf := by
  intro other shelf present
  by_cases same : other = name
  · subst same
    rw [Function.update_self] at present
    exact here shelf present
  · rw [Function.update_of_ne same] at present
    exact before other shelf present

theorem Step.bounded {bound : Nat} (step : scene.Step root statement answer next)
    (spelled : statement.WellSpelled) (bounded : scene.Bounded bound) :
    next.Bounded (bound + statement.insertions) := by
  have wider := bounded.weaken (Nat.le_add_right bound statement.insertions)
  cases step with
  | failed => exact wider
  | queried => exact wider
  | joined => exact wider
  | read => exact wider
  | made free =>
      refine forall_update wider fun shelf same table member => ?_
      cases same
      simp [Shelf.empty] at member
  | dropped present =>
      refine forall_update wider fun shelf same => ?_
      cases same
  | created selected present shaped fits =>
      refine forall_update wider fun shelf same table member => ?_
      cases same
      rcases Database.mem_place.mp member with rfl | old
      · rw [(Table.Sound.withColumns spelled.1 spelled.2 shaped).2.2]
        exact Nat.zero_le _
      · exact wider _ _ present table old
  | torn selected present long =>
      refine forall_update wider fun shelf same table member => ?_
      cases same
      exact wider _ _ present table member
  | removed selected present inside named =>
      refine forall_update wider fun shelf same table member => ?_
      cases same
      exact wider _ _ present table (List.mem_of_mem_filter member)
  | changed changes selected present inside named done =>
      refine forall_update wider fun shelf same table member => ?_
      cases same
      obtain ⟨old, before, shape⟩ := List.mem_map.mp member
      split at shape
      · rw [← shape, (Table.name_of_change changes done).2]
        exact Nat.add_le_add_right (bounded _ _ present _ inside) _
      · exact shape ▸ wider _ _ present old before

section

variable {world other : World} {current now : Option Database}

theorem Move.whole (move : Move root world statement answer other)
    (room : ∀ table columns, statement = .createTable table columns →
      HasRoom ⟨current, world⟩ root table)
    (whole : Whole ⟨current, world⟩) : Whole ⟨now, other⟩ := by
  cases move with
  | stays => exact whole
  | made name =>
      refine forall_update whole fun shelf same => ?_
      cases same
      rfl
  | dropped present =>
      refine forall_update whole fun shelf same => ?_
      cases same
  | put present strays =>
      refine forall_update whole fun shelf same => ?_
      cases same
      exact strays.trans (whole _ _ present)
  | torn present long =>
      refine absurd (room _ _ rfl _ ?_) long
      exact ne_of_eq_of_ne present (Option.some_ne_none _)

/-- A database that is there was there before, or the statement has made it. -/
theorem Move.present (move : Move root world statement answer other) (present : other name ≠ none) :
    world name ≠ none ∨ statement = .createDatabase name := by
  have kept : ∀ {changed : String} {shelf : Shelf} {content : Option Shelf},
      world changed = some shelf → Function.update world changed content name ≠ none →
        world name ≠ none := by
    intro changed shelf content there stands
    by_cases here : name = changed
    · rw [here, there]
      exact Option.some_ne_none shelf
    · rwa [Function.update_of_ne here] at stands
  cases move with
  | stays => exact .inl present
  | made made =>
      by_cases here : name = made
      · exact .inr (here ▸ rfl)
      · rw [Function.update_of_ne here] at present
        exact .inl present
  | dropped there => exact .inl (kept there present)
  | put there => exact .inl (kept there present)
  | torn there => exact .inl (kept there present)

end

theorem Run.bounded (run : Run root scene exchanges last) (bound : Nat)
    (bounded : scene.Bounded bound) :
    last.Bounded (bound + insertions (exchanges.map Prod.fst)) := by
  induction run generalizing bound with
  | nil => simpa [insertions] using bounded
  | @cons scene next last exchange exchanges turn rest inductionHypothesis =>
      have first : next.Bounded (bound + insertionsOf exchange.1) := by
        rcases turn.cases with rfl | ⟨statement, reads, spelled, step⟩
        · exact bounded.weaken (Nat.le_add_right _ _)
        · unfold insertionsOf
          rw [reads]
          exact step.bounded spelled bounded
      have others := inductionHypothesis _ first
      rwa [Nat.add_assoc] at others

/-- As long as tables have room, no table file is left without its second one. -/
theorem Run.whole (run : Run root scene exchanges last) (whole : scene.Whole)
    (room : ∀ name table,
      scene.world name ≠ none ∨ MakesDatabase (exchanges.map Prod.fst) name →
      MakesTable (exchanges.map Prod.fst) table →
      (root.join name).CanName (table ++ counterEnding)) : last.Whole := by
  -- The databases that are there at any time have to be known too: a table needs room in them.
  apply And.left
  apply run.preserves (fun middle => middle.Whole ∧ ∀ name, middle.world name ≠ none →
    scene.world name ≠ none ∨ MakesDatabase (exchanges.map Prod.fst) name)
  · rintro exchange member statement reads - before after step ⟨fine, known⟩
    have asked : exchange.1 ∈ exchanges.map Prod.fst := List.mem_map_of_mem member
    constructor
    · refine step.move.whole (fun table columns asks name present => ?_) fine
      exact room name table (known name present) ⟨exchange.1, asked, columns, by rw [reads, asks]⟩
    · intro name there
      rcases step.move.present there with present | asks
      · exact known name present
      · exact .inr ⟨exchange.1, asked, by rw [reads, asks]⟩
  · exact ⟨whole, fun name present => .inl present⟩

/-- With room for all names and keys enough, every database of a run can be read back. -/
theorem Run.readable (run : Run root fresh exchanges last)
    (room : ∀ name table, MakesDatabase (exchanges.map Prod.fst) name →
      MakesTable (exchanges.map Prod.fst) table → (root.join name).CanName (table ++ counterEnding))
    (few : insertions (exchanges.map Prod.fst) < UInt64.size)
    (present : last.world name = some shelf) : shelf.Readable where
  noStrays := by
    refine run.whole whole_fresh (fun name table there made => ?_) name shelf present
    exact room name table (there.resolve_left fun there => there rfl) made
  short table member := by
    have bounded := run.bounded 0 bounded_fresh name shelf present table member
    rw [Nat.zero_add] at bounded
    exact Nat.lt_of_le_of_lt bounded few

end Scene

namespace Session

open Scene

variable {root : Path} {disk start : Disk} {session : Session}

/-- A session on a new store runs from a scene without databases. -/
theorem executeAll_of_openAt (straight : disk.IsStraight root) (bare : disk.IsBare root)
    (opened : openAt root disk = .ok session start) (commands : List String) :
    ∃ exchanges last after world, session.executeAll start commands = (exchanges, last, after) ∧
      exchanges.map Prod.fst = commands ∧ last.store = ⟨root⟩ ∧
      Run root fresh exchanges ⟨last.current, world⟩ ∧
      Shows ⟨last.current, world⟩ root (disk.endOf root) after := by
  obtain ⟨rfl, mirrors, -⟩ := openAt_mirrors straight bare opened
  obtain ⟨world, store, run, final⟩ :=
    executeAll_run ⟨⟨root⟩, none⟩ (Shows.of_mirrors mirrors) commands
  exact ⟨_, _, _, world, rfl, map_fst_executeAll _ _ _, store, run, final⟩

/-- Commands that make a database with one table and one row. -/
def demonstration : List String :=
  ["CREATE DATABASE d;", "USE d;", "CREATE TABLE t (a);", "INSERT INTO t VALUES ('y');"]

theorem room_demonstration (name table : String) (makesDatabase : MakesDatabase demonstration name)
    (makesTable : MakesTable demonstration table) :
    (Path.join ⟨["r"]⟩ name).CanName (table ++ counterEnding) := by
  have databases : ∀ command ∈ demonstration, Statement.parse command = .ok (.createDatabase "d") ∨
      Statement.parse command = .ok (.use "d") ∨
      Statement.parse command = .ok (.createTable "t" ["a"]) ∨
      Statement.parse command = .ok (.insert "t" [⟨"'y'", .string⟩]) := by
    decide +kernel
  obtain ⟨command, member, reads⟩ := makesDatabase
  obtain rfl : name = "d" := by
    rcases databases command member with known | known | known | known <;>
      cases known.symm.trans reads
    rfl
  obtain ⟨other, otherMember, columns, otherReads⟩ := makesTable
  obtain rfl : table = "t" := by
    rcases databases other otherMember with known | known | known | known <;>
      cases known.symm.trans otherReads
    rfl
  decide +kernel

end Session

end TextTables
