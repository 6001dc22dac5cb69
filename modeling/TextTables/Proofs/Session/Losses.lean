import TextTables.Proofs.Session.Runs
import TextTables.Proofs.Store.Opening

/-!
# How a database is lost

A table is asked for of which the first file has room in the directory, and the second one has
not. The first file stays behind, and from then on the database cannot be read.
-/

namespace TextTables.Session

open Scene Store Text

variable {scene : Scene} {store : Store} {top : Location} {root : Path} {disk start : Disk}
  {session : Session} {name : String} {columns : List String} {table : Table}

theorem createTable_strands {database : Database} {strays : List String}
    (shows : scene.Shows store.root top disk) (selected : scene.current = some database)
    (present : scene.world database.name = some ⟨database.tables, strays⟩)
    (unreserved : isReserved name = false) (free : database.requireFree name = .ok ())
    (shape : Table.withColumns name columns = .ok table)
    (stray : IsStray (store.directory database.name) name)
    (absent : disk.node? (top ++ [database.name] ++ [name ++ tableEnding]) = none) :
    ∃ after, perform store (.createTable name columns) ⟨scene.current, disk⟩ =
        .error (.disk .nameTooLong) ⟨scene.current, after⟩ ∧
      Shows ⟨scene.current, Function.update scene.world database.name
        (some ⟨database.tables, name :: strays⟩)⟩ store.root top after := by
  have leads := shows.mirrors.leads_database present
  obtain ⟨-, -, holds⟩ := shows.mirrors.houses_some present
  obtain rfl : table.name = name := by
    obtain ⟨-, -, rfl⟩ := Table.withColumns_eq_ok shape
    exact stray.named.lower
  obtain ⟨after, torn, changed, stranded⟩ := Store.createTable_torn leads holds stray absent
  have left := SessionM.onDisk_error scene.current torn
  have allowed : checkName table.name = .ok () := by simp [checkName, unreserved]
  have stopped : createTable store table.name columns ⟨scene.current, disk⟩ =
      .error (.disk .nameTooLong) ⟨scene.current, after⟩ := by
    unfold createTable
    have chosen : SessionM.selected ⟨scene.current, disk⟩ =
        .ok database ⟨scene.current, disk⟩ := by
      rw [selected]
      rfl
    apply (Work.bind_ok chosen _).trans
    apply (Work.bind_ok (by rw [free]; rfl) _).trans
    apply (Work.bind_ok (by rw [shape]; rfl) _).trans
    exact Work.bind_error left _
  refine ⟨after, ?_, shows.mirrors.changed_inside present changed stranded, ?_⟩
  · apply (Work.bind_ok (by rw [allowed]; rfl) _).trans
    exact Work.bind_error stopped _
  · intro other same
    obtain rfl : database = other := Option.some.inj (selected.symm.trans same)
    exact ⟨_, Function.update_self _ _ _, rfl⟩

/-- The commands that make a database and a table with too long a name lose the database. -/
theorem executeAll_loses (straight : disk.IsStraight root) (bare : disk.IsBare root)
    (opened : openAt root disk = .ok session start) {database make enter command : String}
    (makes : Statement.parse make = .ok (.createDatabase database))
    (enters : Statement.parse enter = .ok (.use database))
    (asks : Statement.parse command = .ok (.createTable name columns))
    (fits : root.CanName database) (databaseUnreserved : isReserved database = false)
    (unreserved : isReserved name = false) (shape : Table.withColumns name columns = .ok table)
    (stray : IsStray (root.join database) name) :
    ∃ after, session.executeAll start [make, enter, command] =
        ([(make, .answered .done), (enter, .answered .done),
          (command, .failed "Failed creating table" (.disk .nameTooLong))],
          ⟨⟨root⟩, some ⟨database, []⟩⟩, after) ∧
      (∃ error, (⟨root⟩ : Store).loadDatabase database after = .error error after) ∧
      ∃ error, (execute ⟨⟨root⟩, some ⟨database, []⟩⟩ enter after).1 =
        .failed "Failed using database" error := by
  obtain ⟨rfl, mirrors, -⟩ := openAt_mirrors straight bare opened
  have named : IsName database := Statement.wellSpelled_of_parse makes
  obtain ⟨made, makesDone, madeShows⟩ :=
    createDatabase_ok named databaseUnreserved (Shows.of_mirrors mirrors) fits rfl
  have present : Function.update (fun _ => none : World) database (some .empty) database =
    some ⟨[], []⟩ := Function.update_self _ _ _
  have readable : Shelf.Readable .empty := ⟨rfl, fun _ member => nomatch member⟩
  have entersDone : perform ⟨root⟩ (.use database) ⟨none, made⟩ =
      .ok .done ⟨some ⟨database, []⟩, made⟩ := use_readable ⟨root⟩ madeShows present readable
  have selectedShows : Shows ⟨some ⟨database, []⟩,
      Function.update (fun _ => none) database (some .empty)⟩ (⟨root⟩ : Store).root
        (disk.endOf root) made := by
    refine ⟨madeShows.mirrors, fun other selected => ?_⟩
    cases selected
    exact ⟨.empty, present, rfl⟩
  have vacant := (madeShows.mirrors.houses_some present).2.2.entry (name ++ tableEnding)
  have absent : made.node? (disk.endOf root ++ [database] ++ [name ++ tableEnding]) = none := by
    by_contra stands
    rcases vacant stands with ⟨_, member, _⟩ | ⟨_, member, _⟩ <;> cases member
  obtain ⟨after, asksFailed, lastShows⟩ := createTable_strands selectedShows rfl
    present unreserved rfl shape stray absent
  have lost : Function.update (Function.update (fun _ => none : World) database (some .empty))
    database (some ⟨[], [name]⟩) database = some ⟨[], [name]⟩ := Function.update_self _ _ _
  have unreadable : ¬ Shelf.Readable ⟨[], [name]⟩ := fun readable => nomatch readable.noStrays
  obtain ⟨-, -, holds⟩ := lastShows.mirrors.houses_some lost
  have leads := lastShows.mirrors.leads_database lost
  have unread :=
    loadDatabase_unreadable leads.toLeads (leads.locate fits.2) holds unreadable
  obtain ⟨error, entersFailed⟩ := use_unreadable ⟨root⟩ lastShows lost unreadable
  refine ⟨after, ?_, unread, error, ?_⟩
  · simp only [executeAll, execute, makes, enters, asks, makesDone, entersDone, asksFailed]
    rfl
  · simp only [execute, enters, entersFailed]
    rfl

/-- A name of which the table file has room in a directory, but not the second file. -/
def longName : String := String.ofList (List.replicate 245 'a')

theorem toList_longName : longName.toList = List.replicate 245 'a' :=
  String.toList_ofList

theorem utf8ByteSize_longName : longName.utf8ByteSize = 245 := by
  have sized : ∀ count, (String.ofList (List.replicate count 'a')).utf8ByteSize = count := by
    intro count
    induction count with
    | zero => rfl
    | succ count inductionHypothesis =>
        have letter : (String.singleton 'a').utf8ByteSize = 1 := by decide
        rw [List.replicate_succ, String.ofList_cons, String.utf8ByteSize_append, letter,
          inductionHypothesis, Nat.add_comm]
  exact sized 245

theorem isName_longName : IsName longName := by
  have plain : isPlain longName.toList := by
    rw [toList_longName]
    decide +kernel
  refine ⟨plain, String.toList_injective ?_⟩
  rw [toList_lowercase plain, toList_longName]
  decide +kernel

theorem isReserved_longName : isReserved longName = false := by
  have capitals : (List.replicate 245 'a').flatMap capital = List.replicate 245 'A' := by
    have letter : capital 'a' = ['A'] := by decide
    rw [List.flatMap_replicate, letter, List.flatten_replicate_singleton]
  simp only [isReserved, Keyword.ofText?, Verb.ofText?, spelled?, spells, toList_longName, capitals]
  decide +kernel

theorem isStray_longName : IsStray (Path.join ⟨["r"]⟩ "d") longName := by
  have named := isName_longName
  have size_join : ∀ name, '/' ∉ name.toList →
      ((Path.join ⟨["r"]⟩ "d").join name).size = name.utf8ByteSize + 4 := by
    intro name plain
    have inner : Path.join ⟨["r"]⟩ "d" = ⟨["r", "d"]⟩ := by decide
    rw [inner, Path.join_plain plain (by decide)]
    have letters : "r".utf8ByteSize = 1 ∧ "d".utf8ByteSize = 1 := by decide
    simp only [Path.size, List.cons_append, List.nil_append, List.map_cons, List.map_nil,
      List.foldr_cons, List.foldr_nil, letters]
    omega
  have table : (longName ++ tableEnding).utf8ByteSize = 249 := by
    rw [String.utf8ByteSize_append, utf8ByteSize_longName]
    decide
  have counter : (longName ++ counterEnding).utf8ByteSize = 256 := by
    rw [String.utf8ByteSize_append, utf8ByteSize_longName]
    decide
  refine ⟨named, ⟨?_, ?_⟩, fun fits => ?_⟩
  · rw [table]
    decide
  · rw [size_join _ named.isFileName_table.slashFree, table]
    decide
  · have short := fits.1
    rw [counter] at short
    exact absurd short (by decide)

theorem isStraight_single : Disk.empty.IsStraight ⟨["r"]⟩ := by
  unfold Disk.IsStraight
  decide +kernel

/-- A path to a directory that is long enough for a name to fit with one ending only. -/
@[irreducible]
def distantRoot : Path := ⟨List.replicate 2043 "." ++ ["r"]⟩

theorem isStraight_distantRoot : Disk.empty.IsStraight distantRoot := by
  unfold Disk.IsStraight
  decide +kernel

theorem openAt_distantRoot : openAt distantRoot Disk.empty =
    .ok ⟨⟨distantRoot⟩, none⟩ (Disk.empty.put ["r"] .directory) :=
  openAt_new (by decide +kernel) rfl

theorem isStray_distantRoot : IsStray (distantRoot.join "d") "t" where
  named := ⟨by decide +kernel, by decide +kernel⟩
  fits := by decide +kernel
  long := by decide +kernel

end TextTables.Session
