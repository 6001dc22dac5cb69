import TextTables.Proofs.Session.Whereabouts
import TextTables.Proofs.Table.Numbering

/-!
# Rows that sessions overwrite

Sessions that work on the same database do not see each other's rows. An inserted row is read back
as long as the session that inserted last into its table holds it, and is lost if that one does not.
The keys of a table that is read back are unique all the same.
-/

namespace TextTables

open Text

/-- A row that a session has just inserted is stored, and this session is the one that holds it. -/
def Whereabouts.inserted {Owner : Type} [DecidableEq Owner] (sessions : Owner → Session)
    (owner : Owner) : Whereabouts Owner where
  selected other := (sessions other).current.map Database.name
  holds other := other = owner
  stored := true

namespace Session

variable {root : Path} {top : Location} {world : World} {disk : Disk} {current : Option Database}
  {command name : String}

/-- Who selects a database is given the tables that are stored, whatever was selected before. -/
theorem current_of_use {session reader : Session} {answer : Answer} {after : Disk}
    (mirrors : disk.Mirrors session.store.root top world)
    (reads : Statement.parse command = .ok (.use name))
    (executed : session.execute command disk = (.answered answer, reader, after)) :
    ∃ shelf, world name = some shelf ∧ reader.current = some ⟨name, shelf.tables⟩ := by
  obtain ⟨outcome, plan, same⟩ := execute_plan session reads
  rw [same] at executed
  cases plan with
  | refused => cases executed
  | used =>
      dsimp only at executed
      rcases Store.loadDatabase_mirrors mirrors (Statement.wellSpelled_of_parse reads) with
        ⟨error, failed⟩ | ⟨shelf, present, -, done⟩
      · rw [failed] at executed
        cases executed
      · rw [done] at executed
        cases executed
        exact ⟨shelf, present, rfl⟩
  | changed changes => cases changes

theorem execute_use_readable {session : Session} {shelf : Shelf}
    (mirrors : disk.Mirrors session.store.root top world) (present : world name = some shelf)
    (readable : shelf.Readable) (reads : Statement.parse command = .ok (.use name)) :
    session.execute command disk =
      (.answered .done, { session with current := some ⟨name, shelf.tables⟩ }, disk) := by
  simp only [execute, reads, use_ok session.store session.current mirrors present readable]

section

variable {Owner : Type} [DecidableEq Owner] {sessions : Owner → Session} {owner : Owner}
  {session next : Session} {start after : Disk} {values : List Literal} {answer : Answer}

theorem crowd_of_openAt (Owner : Type) (straight : disk.IsStraight root) (bare : disk.IsBare root)
    (opened : openAt root disk = .ok session start) :
    Crowd root (disk.endOf root) (fun _ : Owner => session) (fun _ => none) start := by
  obtain ⟨rfl, mirrors, -⟩ := openAt_mirrors straight bare opened
  exact ⟨mirrors, fun _ => rfl, fun owner database selected => by cases selected⟩

/-- An answered insertion appends a row with the next key to a table of the selected database, and
stores the table. -/
theorem Crowd.insert (crowd : Crowd root top sessions world disk)
    (reads : Statement.parse command = .ok (.insert name values))
    (executed : (sessions owner).execute command disk = (.answered answer, next, after)) :
    ∃ database table other, next.current = some database ∧ table ∈ database.tables ∧
      table.name = name ∧
      table.rows.getLast? = some (toString table.lastKey :: values.map Literal.text) ∧
      Crowd root top (Function.update sessions owner next) other after ∧
      Scene.Shift root ⟨(sessions owner).current, world⟩ (command, .answered answer)
        ⟨next.current, other⟩ ∧
      Traced database.name name (toString table.lastKey :: values.map Literal.text)
        (.inserted (Function.update sessions owner next) owner)
        (fun another => (Function.update sessions owner next another).current) other := by
  obtain ⟨other, crowdAfter, shift⟩ := crowd.turn executed
  rcases shift.cases with ⟨⟨error, unread⟩, -⟩ | ⟨statement, readsToo, spelled, drift⟩
  · cases unread.symm.trans reads
  cases readsToo.symm.trans reads
  have stands := crowd.stands owner
  generalize now : next.current = current at drift
  cases drift with
  | @changed _ _ _ before shelf table changed changes selected present found done =>
      cases changes
      obtain ⟨inside, -, called⟩ := stands.held selected found spelled.1
      obtain ⟨-, shape⟩ := Table.insert_eq_ok done
      have named : changed.name = table.name := by rw [shape]
      have key : table.key = changed.key := by rw [Table.key, Table.key, named]
      have last : changed.rows.getLast? =
          some (toString changed.lastKey :: values.map Literal.text) := by
        simp [shape]
      have row := List.mem_of_getLast? last
      have member : changed ∈ (before.update changed).tables :=
        (Database.mem_update ⟨table, inside, key⟩).mpr (.inl rfl)
      rw [now] at shift
      refine ⟨_, changed, _, rfl, member, named.trans called, last, crowdAfter, shift,
        fun _ => rfl, ?_, shelf.save changed, Function.update_self .., changed,
        Shelf.mem_save.mpr (.inl rfl), named.trans called, fun _ => row⟩
      intro another holds copy selectedCopy
      obtain rfl : another = owner := of_decide_eq_true holds
      rw [Function.update_self, now] at selectedCopy
      cases selectedCopy
      exact ⟨changed, member, named.trans called, fun _ => row⟩

end

/-- Two sessions select the same database, with one table in it. -/
def meeting : List (Bool × String) :=
  [(false, "CREATE DATABASE d;"), (false, "USE d;"), (false, "CREATE TABLE t (a);"),
    (true, "USE d;")]

/-- The second session selects the database again, and inserts a row of its own. -/
def rejoining : List (Bool × String) :=
  [(true, "USE d;"), (true, "INSERT INTO t VALUES ('y');")]

theorem keepsRows_rejoining : ∀ turn ∈ rejoining, KeepsRows turn.2 := by
  have uses : Statement.parse "USE d;" = .ok (.use "d") := by decide +kernel
  have inserts : Statement.parse "INSERT INTO t VALUES ('y');" =
      .ok (.insert "t" [⟨"'y'", .string⟩]) := by
    decide +kernel
  simp [rejoining, keepsRows_of_parse uses trivial, keepsRows_of_parse inserts trivial]

end Session

end TextTables
