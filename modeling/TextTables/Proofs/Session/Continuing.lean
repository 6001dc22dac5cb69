import TextTables.Proofs.Session.KeyColumn
import TextTables.Proofs.Session.Runs
import TextTables.Proofs.Store.Rewriting

/-!
# Databases that are selected again

A database is selected from whatever files are found, its tables are changed by commands, and it is
selected again. The session is then where it was before exactly if the files of all tables that were
changed were named in lower case, and none of these tables has a row of one empty cell.
-/

namespace TextTables

open Text Disk

/-- No table file of the directory has a carriage return. -/
def Disk.IsReturnFree (disk : Disk) (directory : Path) : Prop :=
  ∀ place, disk.locate directory = .ok place → ∀ entry ∈ disk.names place, ∀ stem text,
    Store.stem? entry = some stem → DiskM.readText (directory.join entry) disk = .ok text disk →
      '\r' ∉ text.toList

/-- Without carriage returns, what is read can be written again. -/
theorem Disk.Reads.clean {disk : Disk} {directory : Path} {place : Location} {stem : String}
    {table : Table} (reads : disk.Reads directory place stem table)
    (catalog : disk.Catalog directory place) (located : disk.locate directory = .ok place)
    (isStem : IsStem stem) (returnFree : disk.IsReturnFree directory) : table.Clean := by
  have listed := reads.lists isStem
  have free : ∀ text, disk.HoldsText directory place (stem ++ tableEnding) text →
      '\r' ∉ text.toList :=
    fun text holds => returnFree place located _ listed.mem_names stem text isStem
      ((DiskM.readText_eq_ok_iff catalog.toLeads (listed.isFileName catalog)).mpr ⟨holds, rfl⟩)
  cases reads with
  | kept rows shaped counted numbered =>
      obtain ⟨header, cells⟩ := Table.clean_of_parse shaped (free _ rows)
      exact ⟨header, cells⟩
  | lost rows shaped fits missing admits =>
      obtain ⟨header, cells⟩ := Table.clean_of_parse shaped (free _ rows)
      exact ⟨header, cells⟩

namespace Session

/-- The command changes a table. -/
def IsChange (command : String) : Prop :=
  ∃ statement name change, Statement.parse command = .ok statement ∧
    statement.change? = some (name, change)

/-- The names of the tables that the commands change, in their order. -/
def changedNames (commands : List String) : List String :=
  commands.filterMap fun command =>
    match Statement.parse command with
    | .ok statement => statement.change?.map Prod.fst
    | .error _ => none

variable {session next last : Session} {database : Database} {start now after : Disk}
  {place : Location} {written commands : List String} {command : String}

/-- The last primary keys of a database only grow as its tables are changed. -/
theorem lastKey_le_of_executeAll (selected : session.current = some database)
    (sorted : Database.Sorted database.tables) (changes : ∀ command ∈ commands, IsChange command)
    (disk : Disk) :
    ∃ later, (session.executeAll disk commands).2.1.current = some later ∧
      ∀ table ∈ database.tables, ∃ other ∈ later.tables, table.lastKey ≤ other.lastKey := by
  induction commands generalizing session database disk with
  | nil => exact ⟨database, selected, fun table member => ⟨table, member, le_rfl⟩⟩
  | cons command rest inductionHypothesis =>
      obtain ⟨here, others⟩ := List.forall_mem_cons.mp changes
      obtain ⟨statement, name, change, reads, asks⟩ := here
      simp only [executeAll]
      rcases execute_change session reads asks disk with ⟨error, after, executed⟩ |
        ⟨before, table, changed, after, current, found, done, -, executed⟩
      · rw [executed]
        exact inductionHypothesis selected sorted others after
      · rw [executed]
        obtain rfl : before = database := Option.some.inj (current.symm.trans selected)
        obtain ⟨called, key⟩ := Table.name_of_change asks done
        obtain ⟨member, -⟩ := Database.table_eq_ok found
        have keys : table.key = changed.key := by rw [Table.key, Table.key, called]
        obtain ⟨later, final, grown⟩ :=
          inductionHypothesis (rfl : ({ session with
            current := some (before.update changed) } : Session).current = _)
            (sorted.update changed) others after
        refine ⟨later, final, fun other inside => ?_⟩
        by_cases same : other.key = changed.key
        · obtain rfl := sorted.eq_of_key inside member (same.trans keys.symm)
          obtain ⟨last, there, above⟩ :=
            grown changed ((Database.mem_update ⟨other, member, keys⟩).mpr (.inl rfl))
          exact ⟨last, there, by omega⟩
        · exact grown other ((Database.mem_update ⟨table, member, keys⟩).mpr (.inr ⟨inside, same⟩))

/-- The session has selected a database that stands in its directory as it was read and written, and
of which all tables can be written again. -/
structure WorksOn (session : Session) (start : Disk) (place : Location) (written : List String)
    (database : Database) (now : Disk) : Prop where
  selected : session.current = some database
  rewritten : Rewritten start (session.store.directory database.name) place written database now
  regular : ∀ table ∈ database.tables, table.Regular ∧ table.Keyed
  clean : ∀ table ∈ database.tables, table.Clean

theorem WorksOn.execute (works : session.WorksOn start place written database now)
    {statement : Statement} {name : String} {change : Table → Except SchemaError Table}
    (reads : Statement.parse command = .ok statement)
    (changes : statement.change? = some (name, change))
    (executed : session.execute command now = (.answered .done, next, after)) :
    ∃ later, later.name = database.name ∧ next.store = session.store ∧
      next.WorksOn start place (written ++ [name]) later after := by
  rcases execute_change session reads changes now with ⟨error, other, failed⟩ |
    ⟨before, table, changed, other, current, found, done, saved, succeeded⟩
  · cases failed.symm.trans executed
  obtain rfl : before = database := Option.some.inj (current.symm.trans works.selected)
  cases succeeded.symm.trans executed
  have spelled := Statement.wellSpelled_of_parse reads
  obtain ⟨member, key⟩ := Database.table_eq_ok found
  have same := (Table.name_of_change changes done).1
  have named := Statement.isName_of_change? spelled changes
  have called : table.name = name := by
    rw [← works.rewritten.key_eq member, key, named.lower]
  subst called
  obtain ⟨fits, noDirectory, rfl⟩ :=
    Store.saveTable_eq_ok works.rewritten.catalog (same ▸ named) saved
  rw [same] at fits noDirectory
  have keys : table.key = changed.key := by rw [Table.key, Table.key, same]
  refine ⟨before.update changed, rfl, rfl, rfl,
    works.rewritten.save member same named fits noDirectory, fun other inside => ?_,
    fun other inside => ?_⟩
  · rcases (Database.mem_update ⟨table, member, keys⟩).mp inside with rfl | ⟨old, -⟩
    · exact Table.lasting_keyed.changed spelled changes (works.regular table member) done
    · exact works.regular other old
  · rcases (Database.mem_update ⟨table, member, keys⟩).mp inside with rfl | ⟨old, -⟩
    · exact (works.clean table member).of_change spelled changes done
    · exact works.clean other old

theorem WorksOn.executeAll (works : session.WorksOn start place written database now)
    (changes : ∀ command ∈ commands, IsChange command)
    (answered : ∀ exchange ∈ (session.executeAll now commands).1, exchange.2 = .answered .done) :
    ∃ later, later.name = database.name ∧
      (session.executeAll now commands).2.1.store = session.store ∧
      (session.executeAll now commands).2.1.WorksOn start place (written ++ changedNames commands)
        later (session.executeAll now commands).2.2 := by
  induction commands generalizing session written database now with
  | nil =>
      rw [show changedNames [] = [] from rfl, List.append_nil]
      exact ⟨database, rfl, rfl, works⟩
  | cons command rest inductionHypothesis =>
      obtain ⟨here, others⟩ := List.forall_mem_cons.mp changes
      obtain ⟨statement, name, change, reads, asks⟩ := here
      cases executed : session.execute command now with
      | mk response behind =>
          obtain ⟨next, after⟩ := behind
          simp only [Session.executeAll, executed, List.forall_mem_cons] at answered ⊢
          obtain ⟨rfl, later⟩ := answered
          obtain ⟨middle, called, store, onward⟩ := works.execute reads asks executed
          obtain ⟨final, named, kept, done⟩ := inductionHypothesis onward others later
          have names : changedNames (command :: rest) = name :: changedNames rest := by
            simp [changedNames, reads, asks]
          refine ⟨final, named.trans called, kept.trans store, ?_⟩
          rwa [names, List.append_cons]

variable {use name : String} {disk : Disk}

/-- A database that is selected from clean files is worked on as it is read. -/
theorem worksOn_of_use {loaded : Database} (tree : disk.IsTree)
    (tidy : disk.Tidy []) (named : IsName name)
    (done : session.store.loadDatabase name disk = .ok loaded start)
    (located : disk.locate (session.store.directory name) = .ok place)
    (headers : disk.HasKeyHeaders (session.store.directory name))
    (returnFree : disk.IsReturnFree (session.store.directory name)) :
    disk.Leads (session.store.directory name) place ∧ loaded.name = name ∧
      Database.Sorted loaded.tables ∧
      TellsApart disk (session.store.directory name) place ∧
      ((∀ table ∈ loaded.tables, table.HasShortKey) →
        ({ session with current := some loaded } : Session).WorksOn start place [] loaded start ∧
          ∀ stem, start.Lists (session.store.directory name) place stem ↔
            disk.Lists (session.store.directory name) place stem) := by
  obtain ⟨other, leads, found, -⟩ := Store.loadDatabase_eq_ok done
  cases located.symm.trans found
  have catalog := Catalog.of_locate tree tidy located leads.directory
  obtain ⟨called, carries⟩ := (Store.loadDatabase_eq_ok_iff catalog located).mp ⟨start, done⟩
  rw [named.lower] at called
  refine ⟨leads, called, carries.sorted, carries.apart, fun short => ?_⟩
  obtain ⟨settled, again⟩ := Store.carries_of_loadDatabase catalog located done short
  refine ⟨⟨rfl, ?_, fun table member => ?_, fun table member => ?_⟩, settled.lists⟩
  · rw [called]
    exact again.rewritten settled.catalog
  · exact ⟨Store.regular_of_loadDatabase done table member,
      (Store.keyed_iff_of_loadDatabase done).mpr headers table member⟩
  · obtain ⟨stem, listed, read⟩ := carries.stored table member
    exact read.clean catalog located listed.isStem returnFree

namespace WorksOn

/-- Whether the database can be selected again as it is shows on the names of the files that were
there, and on the rows of the tables that were written. -/
theorem use_iff (works : session.WorksOn start place written database now)
    (reads : Statement.parse use = .ok (.use database.name))
    (unreserved : isReserved database.name = false)
    (size : (session.store.directory database.name).size ≤ maxPathSize)
    (apart : TellsApart start (session.store.directory database.name) place)
    (short : ∀ table ∈ database.tables, table.HasShortKey) :
    (∃ after, session.execute use now = (.answered .done, session, after)) ↔
      ∀ table ∈ database.tables, table.name ∈ written →
        start.Lists (session.store.directory database.name) place table.name ∧
          [""] ∉ table.rows := by
  have catalog := works.rewritten.catalog
  have named : IsName database.name := Statement.wellSpelled_of_parse reads
  have separable : ∀ table ∈ database.tables, table.Separable := fun table member =>
    (works.clean table member).separable (works.regular table member).1
      (works.regular table member).2
  rw [← works.rewritten.carries_iff apart separable short]
  have loads : (∃ after, session.store.loadDatabase database.name now = .ok database after) ↔
      now.Carries (session.store.directory database.name) place database := by
    rw [Store.loadDatabase_eq_ok_iff catalog (catalog.toLeads.locate size), named.lower]
    exact and_iff_right rfl
  rw [← loads]
  constructor
  · rintro ⟨after, executed⟩
    obtain ⟨-, other, loaded, again⟩ := (execute_use_iff session reads).mp executed
    have selected := congrArg Session.current again
    cases works.selected.symm.trans selected
    exact ⟨after, loaded⟩
  · rintro ⟨after, loaded⟩
    refine ⟨after, (execute_use_iff session reads).mpr ⟨unreserved, database, loaded, ?_⟩⟩
    rw [← works.selected]

/-- Whether a table can be dropped, and whether it is gone then, shows on the names of the files
that were there. -/
theorem drop_iff (works : session.WorksOn start place written database now)
    (reads : Statement.parse use = .ok (.use database.name))
    (size : (session.store.directory database.name).size ≤ maxPathSize)
    (apart : TellsApart start (session.store.directory database.name) place)
    {table : Table} (member : table ∈ database.tables) {drop : String}
    (drops : Statement.parse drop = .ok (.dropTable table.name))
    (unreserved : isReserved table.name = false) {world gone : Disk} {response : Response}
    (spares : Disk.Spares (session.store.directory database.name) place table.name now world)
    (executed : session.execute drop world = (response, next, gone)) :
    (response = .answered .done ↔
      start.Lists (session.store.directory database.name) place table.name ∨
        table.name ∈ written) ∧
    ∀ later final after selected,
      Disk.Spares (session.store.directory database.name) place table.name gone later →
      next.execute use later = (.answered .done, final, after) → final.current = some selected →
      (selected.hasTable table.name ↔
        ¬ start.Lists (session.store.directory database.name) place table.name) := by
  have named : IsName table.name := Statement.wellSpelled_of_parse drops
  have found : database.table table.name = .ok table := by
    have looked : database.find? table.name = some table :=
      Database.find?_of_mem works.rewritten.sorted member rfl
    simp [Database.table, looked]
  obtain ⟨removed, absent⟩ :=
    Store.deleteTable_rewritten works.rewritten apart member named spares
  rw [execute_dropTable session drops unreserved works.selected found] at executed
  have behind : (response = .answered .done ↔ ∃ gone, session.store.deleteTable database.name
      table.name world = .ok () gone) ∧ next.store = session.store ∧
      gone = Work.left (session.store.deleteTable database.name table.name world) := by
    cases outcome : session.store.deleteTable database.name table.name world with
    | ok result after =>
        rw [outcome] at executed
        cases executed
        exact ⟨iff_of_true rfl ⟨after, rfl⟩, rfl, rfl⟩
    | error error after =>
        rw [outcome] at executed
        cases executed
        exact ⟨iff_of_false nofun nofun, rfl, rfl⟩
  obtain ⟨response, store, rfl⟩ := behind
  refine ⟨response.trans removed, fun later final after selected spared again current => ?_⟩
  obtain ⟨-, other, loaded, rfl⟩ := (execute_use_iff next reads).mp again
  cases current
  rw [store] at loaded
  have carries := ((Store.loadDatabase_eq_ok_iff spared.catalog
    (spared.catalog.toLeads.locate size)).mp ⟨after, loaded⟩).2
  exact absent later spared selected carries

end WorksOn

/-- A session that selects a database again after changes is where it was exactly if the files of
the tables that were changed are named in lower case and none of these tables has a row of one empty
cell. A table that is dropped is gone from the database exactly if its file is named in lower
case. -/
theorem use_again_iff {opened : Session} {disk : Disk} {use name : String}
    {exchanges : List (String × Response)} (tree : disk.IsTree) (tidy : disk.Tidy [])
    (reads : Statement.parse use = .ok (.use name))
    (used : session.execute use disk = (.answered .done, opened, start))
    (located : disk.locate (session.store.directory name) = .ok place)
    (headers : disk.HasKeyHeaders (session.store.directory name))
    (returnFree : disk.IsReturnFree (session.store.directory name))
    (changes : ∀ command ∈ commands, IsChange command)
    (executed : opened.executeAll start commands = (exchanges, last, now))
    (answered : ∀ exchange ∈ exchanges, exchange.2 = .answered .done)
    (short : ∀ database, last.current = some database →
      ∀ table ∈ database.tables, table.lastKey < UInt64.size) :
    let directory := session.store.directory name
    ∃ database, last.current = some database ∧
      ((∃ after, last.execute use now = (.answered .done, last, after)) ↔
        ∀ table ∈ database.tables, table.name ∈ changedNames commands →
          disk.isFile (Store.tablePath directory table.name) ∧ [""] ∉ table.rows) ∧
      ∀ table ∈ database.tables, ∀ drop, Statement.parse drop = .ok (.dropTable table.name) →
        isReserved table.name = false →
        ∀ world response next gone, Disk.Spares directory place table.name now world →
          last.execute drop world = (response, next, gone) →
          (response = .answered .done ↔
            disk.isFile (Store.tablePath directory table.name) ∨
              table.name ∈ changedNames commands) ∧
          ∀ later final after selected, Disk.Spares directory place table.name gone later →
            next.execute use later = (.answered .done, final, after) →
            final.current = some selected →
            (selected.hasTable table.name ↔
              ¬ disk.isFile (Store.tablePath directory table.name)) := by
  intro directory
  obtain ⟨unreserved, loaded, done, rfl⟩ := (execute_use_iff session reads).mp used
  have named : IsName name := Statement.wellSpelled_of_parse reads
  obtain ⟨leads, rfl, sorted, apart, works⟩ :=
    worksOn_of_use tree tidy named done located headers returnFree
  have opened : ({ session with current := some loaded } : Session).current = some loaded := rfl
  obtain ⟨later, final, grown⟩ := lastKey_le_of_executeAll opened sorted changes start
  rw [executed] at final
  obtain ⟨works, lists⟩ := works fun table member => by
    obtain ⟨other, inside, above⟩ := grown table member
    exact above.trans_lt (short later final other inside)
  have run := works.executeAll changes
  rw [executed] at run
  obtain ⟨database, called, store, works⟩ := run answered
  rw [List.nil_append] at works
  have same : last.store.directory database.name = directory := by rw [store, called]
  have listed : ∀ stem, start.Lists (last.store.directory database.name) place stem ↔
      disk.Lists directory place stem := by
    rw [same]
    exact lists
  have onStart : TellsApart start (last.store.directory database.name) place := by
    intro first second here there
    exact apart first second ((listed first).mp here) ((listed second).mp there)
  have size : (last.store.directory database.name).size ≤ maxPathSize := by
    rw [same]
    exact size_of_locate located
  rw [← called] at reads unreserved
  refine ⟨database, works.selected, ?_, ?_⟩
  · rw [works.use_iff reads unreserved size onStart (short database works.selected)]
    refine forall₃_congr fun table member touched => ?_
    rw [listed, leads.isFile_table_iff (works.rewritten.isName touched)]
  · intro table member drop drops free world response next gone spares executed
    have plain : IsName table.name := Statement.wellSpelled_of_parse drops
    rw [leads.isFile_table_iff plain, ← listed]
    rw [← same] at spares ⊢
    exact works.drop_iff reads size onStart member drops free spares executed

/-- A database with the files of a table named in lower case, and those of one that is not. -/
def mixedDisk (rows counter : String) : Disk :=
  ⟨[], [(["d"], .directory), (["d", "t.tab"], .file rows.toUTF8),
    (["d", "t_config.tab"], .file counter.toUTF8), (["d", "Other.tab"], .file "ID\n7".toUTF8),
    (["d", "Other_config.tab"], .file "pk=7".toUTF8)]⟩

def mixedSession (table : Table) : Session :=
  ⟨⟨⟨["."]⟩⟩, some ⟨"d", [⟨"other", ["ID"], [["7"]], 7⟩, table]⟩⟩

theorem isReturnFree_mixedDisk :
    (mixedDisk "id\ta\n1\tx" "pk=1").IsReturnFree (Store.directory ⟨⟨["."]⟩⟩ "d") := by
  have found : (mixedDisk "id\ta\n1\tx" "pk=1").locate (Store.directory ⟨⟨["."]⟩⟩ "d") =
      .ok ["d"] := by decide +kernel
  have names : (mixedDisk "id\ta\n1\tx" "pk=1").names ["d"] =
      ["t.tab", "t_config.tab", "Other.tab", "Other_config.tab"] := by decide +kernel
  have first : DiskM.readText (Path.join (Store.directory ⟨⟨["."]⟩⟩ "d") "t.tab")
      (mixedDisk "id\ta\n1\tx" "pk=1") =
        .ok "id\ta\n1\tx" (mixedDisk "id\ta\n1\tx" "pk=1") := by decide +kernel
  have second : DiskM.readText (Path.join (Store.directory ⟨⟨["."]⟩⟩ "d") "Other.tab")
      (mixedDisk "id\ta\n1\tx" "pk=1") =
        .ok "ID\n7" (mixedDisk "id\ta\n1\tx" "pk=1") := by decide +kernel
  have counters : ∀ entry ∈ ["t_config.tab", "Other_config.tab"], Store.stem? entry = none := by
    decide +kernel
  intro place located entry member stem text named read
  cases found.symm.trans located
  simp only [names, List.mem_cons, List.not_mem_nil, or_false] at member
  rcases member with rfl | rfl | rfl | rfl
  · cases first.symm.trans read
    decide
  · cases (counters _ (by simp)).symm.trans named
  · cases second.symm.trans read
    decide
  · cases (counters _ (by simp)).symm.trans named

theorem use_again_iff_mixed :
    let disk := mixedDisk "id\ta\n1\tx" "pk=1"
    let opened := mixedSession ⟨"t", ["id", "a"], [["1", "x"]], 1⟩
    let last := mixedSession ⟨"t", ["id"], [["1"], ["2"]], 2⟩
    let now := mixedDisk "id\n1\n2" "pk=2"
    let commands := ["INSERT INTO t VALUES ('y');", "ALTER TABLE t DROP a;"]
    execute ⟨⟨⟨["."]⟩⟩, none⟩ "USE d;" disk = (.answered .done, opened, disk) ∧
      opened.executeAll disk commands =
        (commands.map (·, .answered .done), last, now) ∧
      ∃ after, last.execute "USE d;" now = (.answered .done, last, after) := by
  intro disk opened last now commands
  have reads : Statement.parse "USE d;" = .ok (.use "d") := by decide +kernel
  have tree : disk.IsTree := isTree_of_entries (by decide +kernel)
  have tidy : disk.Tidy [] := tidy_of_entries (by decide +kernel)
  have loads : Store.loadDatabase ⟨⟨["."]⟩⟩ "d" disk = .ok
      ⟨"d", [⟨"other", ["ID"], [["7"]], 7⟩, ⟨"t", ["id", "a"], [["1", "x"]], 1⟩]⟩ disk := by
    decide +kernel
  have headers : disk.HasKeyHeaders (Store.directory ⟨⟨["."]⟩⟩ "d") := by
    refine (Store.keyed_iff_of_loadDatabase loads).mp fun table member => ?_
    simp only [List.mem_cons, List.not_mem_nil, or_false] at member
    rcases member with rfl | rfl
    · exact ⟨"ID", rfl, by decide⟩
    · exact ⟨"id", rfl, by decide⟩
  have found : disk.locate (Store.directory ⟨⟨["."]⟩⟩ "d") = .ok ["d"] := by decide +kernel
  have used : execute ⟨⟨⟨["."]⟩⟩, none⟩ "USE d;" disk = (.answered .done, opened, disk) :=
    (execute_use_iff _ reads).mpr ⟨by decide, _, loads, rfl⟩
  have inserts : opened.execute "INSERT INTO t VALUES ('y');" disk = (.answered .done,
      mixedSession ⟨"t", ["id", "a"], [["1", "x"], ["2", "y"]], 2⟩,
      mixedDisk "id\ta\n1\tx\n2\ty" "pk=2") := by
    decide +kernel
  have drops : execute (mixedSession ⟨"t", ["id", "a"], [["1", "x"], ["2", "y"]], 2⟩)
      "ALTER TABLE t DROP a;" (mixedDisk "id\ta\n1\tx\n2\ty" "pk=2") =
        (.answered .done, last, now) := by
    decide +kernel
  have changes : ∀ command ∈ commands, IsChange command := by
    simp only [commands, List.forall_mem_cons]
    exact ⟨⟨.insert "t" [⟨"'y'", .string⟩], _, _, by decide +kernel, rfl⟩,
      ⟨.alter "t" .drop "a", _, _, by decide +kernel, rfl⟩, by simp⟩
  have executed : opened.executeAll disk commands =
      (commands.map (·, .answered .done), last, now) := by
    simp only [commands, executeAll, inserts, drops, List.map_cons, List.map_nil]
  have short : ∀ database, last.current = some database →
      ∀ table ∈ database.tables, table.lastKey < UInt64.size := by
    rintro database ⟨⟩
    decide
  obtain ⟨database, selected, again, -⟩ :=
    use_again_iff tree tidy reads used found headers isReturnFree_mixedDisk changes
      executed (by simp) short
  refine ⟨used, executed, again.mpr fun table member touched => ?_⟩
  cases selected
  simp only [List.mem_cons, List.not_mem_nil, or_false] at member
  rcases member with rfl | rfl
  · exact absurd touched (by decide +kernel)
  · exact ⟨by decide +kernel, by decide⟩

/-- A database with a table in a file that is named in a capital letter. -/
def capitalDisk : Disk :=
  ⟨[], [(["d"], .directory), (["d", "T.tab"], .file "id\ta\n1\tx".toUTF8),
    (["d", "t_config.tab"], .file "pk=1".toUTF8)]⟩

/-- A database with a row that starts with an empty cell. -/
def blankDisk : Disk :=
  ⟨[], [(["d"], .directory), (["d", "t.tab"], .file "id\ta\n\tx".toUTF8),
    (["d", "t_config.tab"], .file "pk=1".toUTF8)]⟩

/-- A table whose file is named in a capital letter cannot be dropped, and once it was changed its
database cannot be selected. A row of one empty cell is not read again. -/
theorem not_use_again :
    let session : Session := ⟨⟨⟨["."]⟩⟩, none⟩
    (session.executeAll capitalDisk ["USE d;", "INSERT INTO t VALUES ('y');", "USE d;"]).1.map
        Prod.snd = [.answered .done, .answered .done,
          .failed "Failed using database" (.duplicateTable "t")] ∧
      (session.executeAll capitalDisk ["USE d;", "DROP TABLE t;"]).1.map Prod.snd =
        [.answered .done, .failed "Failed dropping table" (.disk .notFound)] ∧
      (session.executeAll blankDisk ["USE d;", "ALTER TABLE t DROP a;"]).2.1.current =
        some ⟨"d", [⟨"t", ["id"], [[""]], 1⟩]⟩ ∧
      (session.executeAll blankDisk ["USE d;", "ALTER TABLE t DROP a;", "USE d;"]).2.1.current =
        some ⟨"d", [⟨"t", ["id"], [], 1⟩]⟩ := by
  intro session
  have selects : session.execute "USE d;" capitalDisk = (.answered .done,
      { session with current := some ⟨"d", [⟨"t", ["id", "a"], [["1", "x"]], 1⟩]⟩ },
      capitalDisk) := by
    decide +kernel
  have inserts : execute
      { session with current := some ⟨"d", [⟨"t", ["id", "a"], [["1", "x"]], 1⟩]⟩ }
      "INSERT INTO t VALUES ('y');" capitalDisk = (.answered .done,
      { session with current := some ⟨"d", [⟨"t", ["id", "a"], [["1", "x"], ["2", "y"]], 2⟩]⟩ },
      (capitalDisk.put ["d", "t.tab"] (.file "id\ta\n1\tx\n2\ty".toUTF8)).put ["d", "t_config.tab"]
        (.file "pk=2".toUTF8)) := by
    decide +kernel
  have refused : (execute
      { session with current := some ⟨"d", [⟨"t", ["id", "a"], [["1", "x"], ["2", "y"]], 2⟩]⟩ }
      "USE d;" ((capitalDisk.put ["d", "t.tab"] (.file "id\ta\n1\tx\n2\ty".toUTF8)).put
        ["d", "t_config.tab"] (.file "pk=2".toUTF8))).1 =
      .failed "Failed using database" (.duplicateTable "t") := by
    decide +kernel
  have stays : (execute
      { session with current := some ⟨"d", [⟨"t", ["id", "a"], [["1", "x"]], 1⟩]⟩ }
      "DROP TABLE t;" capitalDisk).1 = .failed "Failed dropping table" (.disk .notFound) := by
    decide +kernel
  have reads : session.execute "USE d;" blankDisk = (.answered .done,
      { session with current := some ⟨"d", [⟨"t", ["id", "a"], [["", "x"]], 1⟩]⟩ }, blankDisk) := by
    decide +kernel
  have drops : execute
      { session with current := some ⟨"d", [⟨"t", ["id", "a"], [["", "x"]], 1⟩]⟩ }
      "ALTER TABLE t DROP a;" blankDisk = (.answered .done,
      { session with current := some ⟨"d", [⟨"t", ["id"], [[""]], 1⟩]⟩ },
      blankDisk.put ["d", "t.tab"] (.file "id\n".toUTF8)) := by
    decide +kernel
  have loses : (execute { session with current := some ⟨"d", [⟨"t", ["id"], [[""]], 1⟩]⟩ }
      "USE d;" (blankDisk.put ["d", "t.tab"] (.file "id\n".toUTF8))).2.1.current =
      some ⟨"d", [⟨"t", ["id"], [], 1⟩]⟩ := by
    decide +kernel
  simp only [executeAll, selects, inserts, refused, stays, reads, drops, loses, List.map_cons,
    List.map_nil, and_self]

end Session

end TextTables
