import TextTables.Proofs.Session.Interleaving

/-!
# The whereabouts of a row

A row that was inserted stands in the copy of the session that inserted it, and in the file of its
table. It comes into the copy of another session when that one selects the database, and leaves the
file when a session that does not hold it inserts a row of its own.
-/

namespace TextTables

open Text

/-- A row as the responses tell of it: which databases the sessions have selected, which of the
sessions hold the row, and whether it is stored. -/
structure Whereabouts (Owner : Type) where
  selected : Owner → Option String
  holds : Owner → Bool
  stored : Bool

namespace Whereabouts

variable {Owner : Type} [DecidableEq Owner] (database table : String)

/-- What the answer to a statement tells. Who selects the database of the row reads what is stored,
and who inserts into its table stores what it holds. -/
def hear (whereabouts : Whereabouts Owner) (owner : Owner) :
    Statement → Option Answer → Whereabouts Owner
  | .use name, some _ =>
      { whereabouts with
        selected := Function.update whereabouts.selected owner (some name)
        holds := Function.update whereabouts.holds owner (name = database && whereabouts.stored) }
  | .insert name _, some _ =>
      if whereabouts.selected owner = some database ∧ name = table then
        { whereabouts with stored := whereabouts.holds owner }
      else whereabouts
  | _, _ => whereabouts

def note (whereabouts : Whereabouts Owner) : Owner × String × Response → Whereabouts Owner
  | (owner, command, response) =>
      match Statement.parse command with
      | .ok statement => whereabouts.hear database table owner statement response.answer?
      | .error _ => whereabouts

theorem hear_none (whereabouts : Whereabouts Owner) (owner : Owner) (statement : Statement) :
    whereabouts.hear database table owner statement none = whereabouts := by
  cases statement <;> rfl

end Whereabouts

/-- Statements that take no rows away and change none. -/
def Statement.KeepsRows : Statement → Prop
  | alter _ _ _ | update _ _ _ | delete _ _ | dropTable _ | dropDatabase _ => False
  | use _ | createDatabase _ | createTable _ _ | insert _ _ | select _ _ _ | join _ _ _ _ => True

/-- The only change of a table that keeps its rows is an insertion. -/
theorem Statement.KeepsRows.insert {statement : Statement} (keeps : statement.KeepsRows)
    {name : String} {change : Table → Except SchemaError Table}
    (changes : statement.change? = some (name, change)) :
    ∃ values, statement = .insert name values ∧
      change = fun table => table.insert (values.map Literal.text) := by
  rcases Statement.change?_cases changes with ⟨alteration, column, rfl, -⟩ | inserts |
    ⟨assignments, condition, rfl, -⟩ | ⟨condition, rfl, -⟩
  · exact keeps.elim
  · exact inserts
  · exact keeps.elim
  · exact keeps.elim

/-- There is a table of the name, which has the row if it is said to be there. -/
def HasRow (name : String) (row : Row) (there : Bool) (tables : List Table) : Prop :=
  ∃ table ∈ tables, table.name = name ∧ (there = true → row ∈ table.rows)

namespace HasRow

variable {name : String} {row : Row} {there : Bool} {before after : List Table} {changed : Table}

theorem place (has : HasRow name row there before) (table : Table) :
    HasRow name row there (Database.place table before) := by
  obtain ⟨old, member, named, kept⟩ := has
  exact ⟨old, Database.mem_place.mpr (.inr member), named, kept⟩

/-- A table that takes the place of another has to have the row only if it has the name. -/
theorem replace (has : HasRow name row there before)
    (members : ∀ other, other ∈ after ↔
      other = changed ∨ (other ∈ before ∧ other.key ≠ changed.key))
    (called : ∀ other ∈ before, other.key = changed.key → other.name = changed.name)
    (here : changed.name = name → there = true → row ∈ changed.rows) :
    HasRow name row there after := by
  obtain ⟨old, member, named, kept⟩ := has
  by_cases same : old.key = changed.key
  · have name := (called old member same).symm.trans named
    exact ⟨changed, (members changed).mpr (.inl rfl), name, here name⟩
  · exact ⟨old, (members old).mpr (.inr ⟨member, same⟩), named, kept⟩

end HasRow

variable {Owner : Type} {root : Path} {top : Location} {disk : Disk} {database name : String}
  {row : Row} {whereabouts : Whereabouts Owner} {copies last : Owner → Option Database}
  {world final other : World} {owner : Owner} {next : Option Database} {statement : Statement}
  {answer : Option Answer}

/-- The whereabouts are right: the sessions that are said to hold the row have it in their copies,
and its table has it if it is said to be stored. -/
structure Traced (database name : String) (row : Row) (whereabouts : Whereabouts Owner)
    (copies : Owner → Option Database) (world : World) : Prop where
  selected : ∀ owner, (copies owner).map Database.name = whereabouts.selected owner
  held : ∀ owner, whereabouts.holds owner = true → ∀ copy, copies owner = some copy →
    HasRow name row true copy.tables
  stored : ∃ shelf, world database = some shelf ∧ HasRow name row whereabouts.stored shelf.tables

namespace Traced

theorem has_row (traced : Traced database name row whereabouts copies world) {shelf : Shelf}
    (present : world database = some shelf) : HasRow name row whereabouts.stored shelf.tables := by
  obtain ⟨old, there, has⟩ := traced.stored
  cases present.symm.trans there
  exact has

/-- What is stored stays if another shelf is changed, or if the one that takes its place has it. -/
theorem stored_update (traced : Traced database name row whereabouts copies world)
    {changed : String} {content : Option Shelf} (here : changed = database →
      ∃ shelf, content = some shelf ∧ HasRow name row whereabouts.stored shelf.tables) :
    ∃ shelf, Function.update world changed content database = some shelf ∧
      HasRow name row whereabouts.stored shelf.tables := by
  by_cases same : changed = database
  · rw [same, Function.update_self]
    exact here same
  · rw [Function.update_of_ne (Ne.symm same)]
    exact traced.stored

section

variable {table : String} {values : List Literal} {copy : Database} {shelf : Shelf}
  {held changed : Table} (traced : Traced database name row whereabouts copies world)
  (stands : Scene.Stands ⟨copies owner, world⟩ root top disk) (selected : copies owner = some copy)
  (found : copy.table table = .ok held)
  (inserted : held.insert (values.map Literal.text) = .ok changed)

include stands selected found inserted

/-- The only table of the copy with the key of the changed one is the one that was changed. -/
theorem eq_held : ∀ other ∈ copy.tables, other.key = changed.key → other = held := by
  obtain ⟨-, shape⟩ := Table.insert_eq_ok inserted
  have key : changed.key = held.key := by rw [Table.key, Table.key, shape]
  exact fun other member same => (stands.proper copy selected).sorted.eq_of_key member
    (Database.table_eq_ok found).1 (same.trans key)

include traced

/-- A session that holds the row has it in the table into which it inserts another one. -/
theorem mem_rows_insert (said : whereabouts.holds owner = true) (here : changed.name = name) :
    row ∈ changed.rows := by
  obtain ⟨other, member, named, has⟩ := traced.held owner said copy selected
  obtain rfl := eq_held stands selected found inserted other member
    (by rw [Table.key, Table.key, named, here])
  obtain ⟨-, shape⟩ := Table.insert_eq_ok inserted
  rw [shape]
  exact List.mem_append_left _ (has rfl)

/-- A session that holds the row goes on to hold it. -/
theorem held_insert (said : whereabouts.holds owner = true) :
    HasRow name row true (copy.update changed).tables := by
  obtain ⟨-, shape⟩ := Table.insert_eq_ok inserted
  have named : changed.name = held.name := by rw [shape]
  have key : held.key = changed.key := by rw [Table.key, Table.key, named]
  have unique := eq_held stands selected found inserted
  apply (traced.held owner said copy selected).replace
    fun other => Database.mem_update ⟨held, (Database.table_eq_ok found).1, key⟩
  · exact fun other member same => by rw [unique other member same, named]
  · exact fun here _ => mem_rows_insert traced stands selected found inserted said here

end

variable [DecidableEq Owner]

/-- A turn of a session that keeps to its database. -/
theorem turn (traced : Traced database name row whereabouts copies world)
    (same : next.map Database.name = (copies owner).map Database.name)
    (held : whereabouts.holds owner = true → ∀ copy, next = some copy →
      HasRow name row true copy.tables) {there : Bool}
    (stored : ∃ shelf, other database = some shelf ∧ HasRow name row there shelf.tables) :
    Traced database name row { whereabouts with stored := there }
      (Function.update copies owner next) other := by
  refine ⟨?_, ?_, stored⟩
  · rw [Function.forall_update_iff copies fun another current =>
      current.map Database.name = whereabouts.selected another]
    exact ⟨same.trans (traced.selected owner), fun another _ => traced.selected another⟩
  · rw [Function.forall_update_iff copies fun another current =>
      whereabouts.holds another = true → ∀ copy, current = some copy →
        HasRow name row true copy.tables]
    exact ⟨held, fun another _ => traced.held another⟩

/-- A session that selects a database gets its tables as they are stored. -/
theorem read (traced : Traced database name row whereabouts copies world) {selected : String}
    {shelf : Shelf} (present : world selected = some shelf) (answer : Answer) :
    Traced database name row
      (whereabouts.hear database name owner (.use selected) (some answer))
      (Function.update copies owner (some ⟨selected, shelf.tables⟩)) world := by
  refine ⟨fun another => ?_, fun another => ?_, traced.stored⟩
  · by_cases here : another = owner
    · subst here
      simp [Whereabouts.hear]
    · simp [Whereabouts.hear, here, traced.selected another]
  · by_cases here : another = owner
    · subst here
      simp only [Whereabouts.hear, Function.update_self, Bool.and_eq_true, decide_eq_true_eq]
      rintro ⟨rfl, kept⟩ copy same
      cases same
      have has := traced.has_row present
      rwa [kept] at has
    · simp only [Whereabouts.hear, Function.update_of_ne here]
      exact traced.held another

/-- An insertion stores the table as the session holds it. -/
theorem insert {table : String} {values : List Literal} {copy : Database} {shelf : Shelf}
    {held changed : Table} (traced : Traced database name row whereabouts copies world)
    (stands : Scene.Stands ⟨copies owner, world⟩ root top disk) (selected : copies owner = some copy)
    (found : copy.table table = .ok held)
    (inserted : held.insert (values.map Literal.text) = .ok changed) (named : IsName table)
    (present : world copy.name = some shelf) (answer : Answer) :
    Traced database name row
      (whereabouts.hear database name owner (.insert table values) (some answer))
      (Function.update copies owner (some (copy.update changed)))
      (Function.update world copy.name (some (shelf.save changed))) := by
  obtain ⟨-, sound, called⟩ := stands.held selected found named
  obtain ⟨-, -, holds⟩ := stands.mirrors.houses_some present
  obtain ⟨-, shape⟩ := Table.insert_eq_ok inserted
  have kept : changed.name = held.name := by rw [shape]
  have sameName : (some (copy.update changed)).map Database.name =
      (copies owner).map Database.name := by
    rw [selected]
    rfl
  have selectedName := traced.selected owner
  rw [selected, Option.map_some] at selectedName
  have heldAfter : whereabouts.holds owner = true → ∀ after, some (copy.update changed) = some after →
      HasRow name row true after.tables := by
    rintro said after ⟨⟩
    exact held_insert traced stands selected found inserted said
  by_cases same : copy.name = database ∧ table = name
  · rw [Whereabouts.hear, if_pos ⟨by rw [← selectedName, same.1], same.2⟩]
    have here : changed.name = name := kept.trans (called.trans same.2)
    apply traced.turn sameName heldAfter
    exact ⟨shelf.save changed, by rw [same.1, Function.update_self], changed,
      Shelf.mem_save.mpr (.inl rfl), here,
      fun said => mem_rows_insert traced stands selected found inserted said here⟩
  · rw [Whereabouts.hear, if_neg (by rwa [← selectedName, Option.some_inj])]
    apply traced.turn sameName heldAfter
    refine traced.stored_update fun here => ⟨_, rfl, ?_⟩
    apply (traced.has_row (here ▸ present)).replace fun other => Shelf.mem_save
    · intro other member equal
      rw [← (holds.sound other member).key, equal, Table.key, kept, ← Table.key, sound.key]
    · exact fun wanted => absurd ⟨here, (called.symm.trans kept.symm).trans wanted⟩ same

end Traced

/-- The whereabouts stay right through every step that keeps rows. -/
theorem Scene.Drift.traced [DecidableEq Owner] {next : Scene}
    (drift : Scene.Drift root ⟨copies owner, world⟩ statement answer next)
    (spelled : statement.WellSpelled) (stands : Scene.Stands ⟨copies owner, world⟩ root top disk)
    (keeps : statement.KeepsRows) (traced : Traced database name row whereabouts copies world) :
    Traced database name row (whereabouts.hear database name owner statement answer)
      (Function.update copies owner next.current) next.world := by
  cases drift with
  | failed =>
      rw [Whereabouts.hear_none, Function.update_eq_self]
      exact traced
  | queried | joined =>
      rw [Function.update_eq_self]
      exact traced
  | read present => exact traced.read present _
  | made free =>
      apply traced.turn rfl (traced.held owner) (traced.stored_update fun here => ?_)
      obtain ⟨shelf, present, -⟩ := traced.stored
      cases (here ▸ free).symm.trans present
  | dropped => exact keeps.elim
  | created selected present =>
      apply traced.turn (by rw [show copies owner = _ from selected]; rfl)
      · rintro said copy ⟨⟩
        exact (traced.held owner said _ selected).place _
      · exact traced.stored_update fun here =>
          ⟨_, rfl, (traced.has_row (here ▸ present)).place _⟩
  | @torn _ _ _ shelf selected present =>
      apply traced.turn rfl (traced.held owner) (traced.stored_update fun here => ?_)
      have has : HasRow name row whereabouts.stored shelf.tables := traced.has_row (here ▸ present)
      exact ⟨_, rfl, has⟩
  | removed => exact keeps.elim
  | changed changes selected present found done =>
      obtain ⟨values, rfl, rfl⟩ := keeps.insert changes
      exact traced.insert stands selected found done spelled.1 present _

/-- The command is no statement that could take rows away or change them. -/
def KeepsRows (command : String) : Prop :=
  ∀ statement, Statement.parse command = .ok statement → statement.KeepsRows

theorem keepsRows_of_parse {command : String} (reads : Statement.parse command = .ok statement)
    (keeps : statement.KeepsRows) : KeepsRows command := by
  intro other readsOther
  cases reads.symm.trans readsOther
  exact keeps

theorem Interleaving.traced [DecidableEq Owner] {exchanges : List (Owner × String × Response)}
    (run : Interleaving root top copies world exchanges last final)
    (keeps : ∀ command ∈ commands exchanges, KeepsRows command)
    (traced : Traced database name row whereabouts copies world) :
    Traced database name row (exchanges.foldl (Whereabouts.note database name) whereabouts) last
      final := by
  refine run.preserves _ (fun whereabouts => Traced database name row whereabouts) ?_ _ traced
  intro owner exchange member whereabouts copies world next other disk stands shift before
  unfold Whereabouts.note
  rcases shift.cases with ⟨⟨error, unread⟩, same⟩ | ⟨statement, reads, spelled, drift⟩
  · cases same
    simp only [unread, Function.update_eq_self]
    exact before
  · simp only [reads]
    exact drift.traced spelled stands (keeps _ (List.mem_map_of_mem member) statement reads) before

end TextTables
