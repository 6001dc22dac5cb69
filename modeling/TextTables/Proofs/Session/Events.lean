import TextTables.Proofs.Session.Effects
import TextTables.Proofs.Store.Upkeep

/-!
# What happens to a store

Commands are given, and the session is closed and opened again, in any order. A tally is kept
beside, from the responses: which database is selected, and how many rows each table was given since
it was made.
-/

namespace TextTables

open Location Work Text

/-- What happens to a store: a command is given, or a new session is opened on it. -/
inductive Event where
  | command (text : String)
  | restart

/-- The selected database, and how many rows were inserted into each table that was made. -/
structure Tally where
  selected : Option String
  given : String → String → Option Nat

namespace Tally

def start : Tally := ⟨none, fun _ _ => none⟩

/-- Changes the count of a table of the selected database. -/
def recount (tally : Tally) (table : String) (change : Option Nat → Option Nat) : Tally :=
  match tally.selected with
  | none => tally
  | some database =>
      { tally with
        given := Function.update tally.given database
          (Function.update (tally.given database) table (change (tally.given database table))) }

/-- A statement that is answered. A table is counted from when it is made until it, or its database,
is dropped. -/
def answered (tally : Tally) : Statement → Tally
  | .use name => { tally with selected := some name }
  | .dropDatabase name =>
      { selected := tally.selected.filter (· ≠ name)
        given := Function.update tally.given name fun _ => none }
  | .createTable name _ => tally.recount name fun _ => some 0
  | .dropTable name => tally.recount name fun _ => none
  | .insert name _ => tally.recount name fun count => count.map (· + 1)
  | _ => tally

/-- A database that was dropped in part. Of its tables the ones are dropped that lost a file. -/
def halved (tally : Tally) (top : Location) (disk : Disk) (name : String) : Tally :=
  { tally with
    given := Function.update tally.given name fun table =>
      if (disk.node? (top ++ [name] ++ [table ++ tableEnding])).isSome ∧
          (disk.node? (top ++ [name] ++ [table ++ counterEnding])).isSome then
        tally.given name table
      else none }

/-- Takes note of the response to a statement, and of what a failed removal has left on the disk. -/
def note (tally : Tally) (top : Location) (disk : Disk) : Statement → Response → Tally
  | statement, .answered _ => tally.answered statement
  | .dropDatabase name, .failed _ _ => tally.halved top disk name
  | _, .failed _ _ => tally

end Tally

/-- A session on a store and its disk, and the tally of what was answered so far. -/
structure Life where
  session : Session
  disk : Disk
  tally : Tally

namespace Life

def step (root : Path) (life : Life) : Event → Life
  | .command text =>
      let (response, session, disk) := life.session.execute text life.disk
      match Statement.parse text with
      | .ok statement =>
          ⟨session, disk, life.tally.note (disk.endOf root) disk statement response⟩
      | .error _ => ⟨session, disk, life.tally⟩
  | .restart =>
      match Session.openAt root life.disk with
      | .ok session disk => ⟨session, disk, { life.tally with selected := none }⟩
      | .error _ disk => ⟨life.session, disk, life.tally⟩

def play (root : Path) (life : Life) (events : List Event) : Life :=
  events.foldl (step root) life

end Life

namespace Tally

variable {tally : Tally} {database name table : String} {statement : Statement}
  {change : Option Nat → Option Nat}

theorem given_recount (selected : tally.selected = some database) (other : String) :
    (tally.recount table change).given other name =
      if other = database ∧ name = table then change (tally.given database table)
      else tally.given other name := by
  simp only [recount, selected]
  by_cases same : other = database
  · subst same
    by_cases here : name = table
    · subst here
      simp
    · simp [here]
  · simp [same]

theorem selected_recount : (tally.recount table change).selected = tally.selected := by
  unfold recount
  split <;> rfl

/-- A statement that changes a table is counted by the rows that it inserts. -/
theorem answered_change {alter : Table → Except SchemaError Table}
    (changes : statement.change? = some (table, alter))
    (selected : tally.selected = some database) :
    (tally.answered statement).selected = tally.selected ∧
      ∀ other name, (tally.answered statement).given other name =
        if other = database ∧ name = table then
          (tally.given other name).map (· + statement.insertions)
        else tally.given other name := by
  have idle : ∀ other name, tally.given other name =
      if other = database ∧ name = table then (tally.given other name).map (· + 0)
      else tally.given other name := by
    intro other name
    simp
  rcases Statement.change?_cases changes with ⟨alteration, column, rfl, -⟩ | ⟨values, rfl, -⟩ |
    ⟨assignments, condition, rfl, -⟩ | ⟨condition, rfl, -⟩
  · exact ⟨rfl, idle⟩
  · refine ⟨selected_recount, fun other name => ?_⟩
    rw [answered, given_recount selected]
    split
    · rename_i here
      rw [here.1, here.2]
      rfl
    · rfl
  · exact ⟨rfl, idle⟩
  · exact ⟨rfl, idle⟩

/-- A failure counts nothing, and a table that is still counted has both its files. -/
theorem note_failed (tally : Tally) (statement : Statement) {top : Location} {disk : Disk}
    {activity : String} {error : Error} :
    (tally.note top disk statement (.failed activity error)).selected = tally.selected ∧
      ∀ database name count,
        (tally.note top disk statement (.failed activity error)).given database name = some count →
          tally.given database name = some count ∧ (statement = .dropDatabase database →
            disk.node? (top ++ [database] ++ [name ++ tableEnding]) ≠ none ∧
              disk.node? (top ++ [database] ++ [name ++ counterEnding]) ≠ none) := by
  by_cases drops : ∃ dropped, statement = .dropDatabase dropped
  · obtain ⟨dropped, rfl⟩ := drops
    refine ⟨rfl, fun database name count given => ?_⟩
    by_cases same : database = dropped
    · subst same
      simp only [note, halved, Function.update_self] at given
      split at given
      · rename_i stand
        refine ⟨given, fun _ => ?_⟩
        simpa [Option.isSome_iff_ne_none] using stand
      · cases given
    · simp only [note, halved, Function.update_of_ne same] at given
      refine ⟨given, fun drops => ?_⟩
      cases drops
      exact absurd rfl same
  · have same : tally.note top disk statement (.failed activity error) = tally := by
      cases statement <;> first | rfl | exact absurd ⟨_, rfl⟩ drops
    rw [same]
    exact ⟨rfl, fun database name count given =>
      ⟨given, fun drop => absurd ⟨database, drop⟩ drops⟩⟩

end Tally

end TextTables
