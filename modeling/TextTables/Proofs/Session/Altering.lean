import TextTables.Proofs.Session.Coherence
import TextTables.Proofs.Session.Keeping
import TextTables.Proofs.Session.Outcomes
import TextTables.Proofs.Store.Repeating
import TextTables.Proofs.Table.Altering

/-!
# Sessions that alter tables

However a session came to its tables, a column that it adds or drops leaves what the others show.
Where a column was just added it can be dropped, and then the session is what it was before. In a
run from a new store the files are as they were, too.
-/

namespace TextTables

open Text

/-- What the alteration makes of a table. -/
def Alteration.Makes (alteration : Alteration) (column : String) (table changed : Table) : Prop :=
  match alteration with
  | .add => table.Adds column changed
  | .drop => table.Drops column changed

theorem Alteration.makes {alteration : Alteration} {column : String} {table changed : Table}
    (regular : table.Regular) (done : alteration.apply column table = .ok changed) :
    alteration.Makes column table changed := by
  cases alteration with
  | add => exact Table.adds_of_addColumn regular done
  | drop => exact Table.drops_of_dropColumn regular done

/-- The table that was changed takes its old place again. -/
theorem Database.update_back {database : Database} {table changed : Table}
    (sorted : Sorted database.tables) (member : table ∈ database.tables)
    (same : changed.key = table.key) : (database.update changed).update table = database := by
  unfold update
  rw [List.map_map]
  have kept : ∀ other ∈ database.tables,
      ((fun other : Table => if other.key = table.key then table else other) ∘
        fun other : Table => if other.key = changed.key then changed else other) other = other := by
    intro other inside
    rw [Function.comp_apply]
    by_cases here : other.key = changed.key
    · rw [if_pos here, if_pos same, sorted.eq_of_key inside member (here.trans same)]
    · rw [if_neg here, if_neg (same ▸ here)]
  rw [List.map_congr_left kept, List.map_id']

theorem Store.sorted_of_loadDatabase {store : Store} {name : String} {disk after : Disk}
    {database : Database} (done : store.loadDatabase name disk = .ok database after) :
    Database.Sorted database.tables := by
  obtain ⟨place, -, -, folded⟩ := loadDatabase_eq_ok done
  have start : Database.Sorted (Database.empty name).tables := .nil
  refine Work.foldlM_preserves (fun database _ => Database.Sorted database.tables)
    (fun entry _ sofar disk next after sorted step => ?_) start folded
  rcases loadEntry_eq_ok step with ⟨rfl, -, -⟩ | ⟨stem, table, -, -, -, fresh, rfl⟩
  · exact sorted
  · exact sorted.place fresh

namespace Session

variable {session next : Session} {command name column : String} {alteration : Alteration}
  {disk after : Disk} {answer : Answer}

/-- No two tables of the selected database have the same key. -/
def HasOrder (session : Session) : Prop :=
  ∀ database, session.current = some database → Database.Sorted database.tables

theorem HasOrder.execute (ordered : session.HasOrder) (command : String) (disk : Disk) :
    (session.execute command disk).2.1.HasOrder := by
  intro database selected
  cases selects_of_execute selected with
  | kept before => exact ordered database before
  | loaded reads done => exact Store.sorted_of_loadDatabase done
  | created _ before _ fresh => exact (ordered _ before).place fresh
  | removed _ before => exact (ordered _ before).sublist List.filter_sublist
  | changed _ _ before => exact (ordered _ before).update _

theorem HasOrder.executeEach (ordered : session.HasOrder) (visits : List (String × Disk)) :
    (session.executeEach visits).2.HasOrder :=
  executeEach_preserves HasOrder (fun _ command disk ordered => ordered.execute command disk)
    ordered visits

/-- In a run from a new store, a table that is saved back behind a change has both its files as they
were, and so has the disk. -/
theorem Keeps.saveTable_restores {top : Location} {database : Database} {table changed : Table}
    {final : Disk} (keeps : session.Keeps top disk) (selected : session.current = some database)
    (member : table ∈ database.tables) (same : changed.name = table.name)
    (saved : session.store.saveTable database.name changed disk = .ok () after)
    (restored : session.store.saveTable database.name table after = .ok () final) :
    disk.Same final := by
  have named := (keeps.wellNamed database selected).named
  by_cases leads : disk.Leads session.store.root top
  · exact Store.saveTable_restores keeps.orderly named
      (keeps.stored leads database selected table member) same saved restored
  · have tableNamed : IsName changed.name :=
      same ▸ (keeps.wellNamed database selected).tables table member
    obtain ⟨error, failed⟩ := Store.saveTable_of_lost keeps.orderly leads named tableNamed
    cases failed.symm.trans saved

/-- However a session came to its tables, a column that is added or dropped changes no other column
of the table: each of them, asked for alone, shows what it showed. A new column is the last one and
holds nothing. Without a column, insertions take one value less, and no spelling finds it any more.
A column that was added can be dropped at once, which restores the session, and in a run from a new
store what is on the disk as well. -/
theorem execute_alter {root : Path} {visits : List (String × Disk)}
    (visited : (executeEach ⟨⟨root⟩, none⟩ visits).2 = session)
    (reads : Statement.parse command = .ok (.alter name alteration column))
    (done : session.execute command disk = (.answered answer, next, after)) :
    ∃ database table changed, session.current = some database ∧ database.table name = .ok table ∧
      next = { session with current := some (database.update changed) } ∧
      (database.update changed).table name = .ok changed ∧
      alteration.Makes column table changed ∧
      (alteration = .drop → ∀ insertion values,
        Statement.parse insertion = .ok (.insert name values) → ∀ elsewhere,
          ((∃ reason, (session.execute insertion elsewhere).1 =
              .failed (Statement.insert name values).activity (.schema reason)) ↔
            values.length + 1 ≠ table.columns.length) ∧
          ((∃ reason, (next.execute insertion elsewhere).1 =
              .failed (Statement.insert name values).activity (.schema reason)) ↔
            values.length + 2 ≠ table.columns.length)) ∧
      (alteration = .add → table.Keyed → ∀ dropping called,
        Statement.parse dropping = .ok (.alter name .drop called) →
        sameIgnoringCase called column →
          ∃ final, next.execute dropping after = (.answered .done, session, final) ∧
            ∀ path begin opened start commands, begin.IsBare (.ofText path) →
              openAt (.ofText path) begin = .ok opened start →
              (opened.executeAll start commands).2 = (session, disk) → disk.Same final) := by
  obtain ⟨free, database, table, changed, selected, found, made, saved, rfl, rfl⟩ :=
    (execute_change_iff session reads rfl).mp done
  have regular := regular_of_found visited selected found
  have spelled := Statement.wellSpelled_of_parse reads
  have named : IsName name := spelled.1
  have changes : (Statement.alter name alteration column).change? =
      some (name, alteration.apply column) := rfl
  have same := (Table.name_of_change changes made).1
  obtain ⟨there, -⟩ := selected_of_update changed named found same
  have makes := Alteration.makes regular made
  refine ⟨database, table, changed, selected, found, rfl, there, makes, ?_, ?_⟩
  · rintro rfl insertion values readsInsertion elsewhere
    have before := refused_change_iff readsInsertion rfl selected found elsewhere
    have behind : (∃ reason, (execute { session with current := some (database.update changed) }
        insertion elsewhere).1 = .failed _ (.schema reason)) ↔ _ :=
      refused_change_iff readsInsertion rfl rfl there elsewhere
    rw [before, behind, Table.refused_insert_iff, makes.insertion]
    simp [free]
  · rintro rfl keyed dropping called readsDropping alike
    have member := (Database.table_eq_ok found).1
    have ordered : session.HasOrder := by
      have fresh : HasOrder ⟨⟨root⟩, none⟩ := nofun
      have sorted := fresh.executeEach visits
      rwa [visited] at sorted
    have restored := Table.dropColumn_of_addColumn regular keyed made alike
    obtain ⟨final, savedBack⟩ := Store.exists_saveTable_after same.symm saved
    have back : (database.update changed).update table = database :=
      Database.update_back (ordered database selected) member (by rw [Table.key, Table.key, same])
    refine ⟨final, ?_, ?_⟩
    · refine (execute_change_iff _ readsDropping rfl).mpr
        ⟨free, _, changed, table, rfl, there, restored, savedBack, rfl, ?_⟩
      rw [back, ← selected]
    · intro path begin opened start commands bare fresh ran
      have keeps := executeAll_keeps bare fresh commands
      rw [ran] at keeps
      exact keeps.saveTable_restores selected member same saved savedBack

/-- A column is added and dropped in another letter case, and one is dropped that held a cell. -/
theorem execute_alter_row :
    let root := Path.ofText "r"
    let start := Disk.empty.put ["r"] .directory
    let disk : Disk := ⟨[], [(["r"], .directory), (["r", "d"], .directory),
      (["r", "d", "t.tab"], .file "id\ta\n1\ty".toUTF8),
      (["r", "d", "t_config.tab"], .file "pk=1".toUTF8)]⟩
    let table : Table := ⟨"t", ["id", "a"], [["1", "y"]], 1⟩
    let wider : Table := ⟨"t", ["id", "a", "b"], [["1", "y", "NULL"]], 1⟩
    let narrower : Table := ⟨"t", ["id"], [["1"]], 1⟩
    let holding (table : Table) : Session := ⟨⟨root⟩, some ⟨"d", [table]⟩⟩
    (executeAll ⟨⟨root⟩, none⟩ start demonstration).2 = (holding table, disk) ∧
      (∃ after final, (holding table).execute "ALTER TABLE t ADD b;" disk =
          (.answered .done, holding wider, after) ∧ table.Adds "b" wider ∧
        (holding wider).execute "ALTER TABLE t DROP B;" after =
          (.answered .done, holding table, final) ∧ disk.Same final) ∧
      ∃ after, (holding table).execute "ALTER TABLE t DROP a;" disk =
        (.answered .done, holding narrower, after) ∧ table.Drops "a" narrower := by
  intro root start disk table wider narrower holding
  have opened : openAt root Disk.empty = .ok ⟨⟨root⟩, none⟩ start := by decide +kernel
  have ran : (executeAll ⟨⟨root⟩, none⟩ start demonstration).2 = (holding table, disk) := by
    decide +kernel
  have visited : (executeEach ⟨⟨root⟩, none⟩ [("USE d;", disk)]).2 = holding table := by
    decide +kernel
  have readsAdding : Statement.parse "ALTER TABLE t ADD b;" = .ok (.alter "t" .add "b") := by
    decide +kernel
  have readsDropping : Statement.parse "ALTER TABLE t DROP a;" = .ok (.alter "t" .drop "a") := by
    decide +kernel
  have added : ((holding table).execute "ALTER TABLE t ADD b;" disk).1 = .answered .done ∧
      ((holding table).execute "ALTER TABLE t ADD b;" disk).2.1 = holding wider := by decide +kernel
  have dropped : ((holding table).execute "ALTER TABLE t DROP a;" disk).1 = .answered .done ∧
      ((holding table).execute "ALTER TABLE t DROP a;" disk).2.1 = holding narrower := by
    decide +kernel
  have foundTable : Database.table ⟨"d", [table]⟩ "t" = .ok table := by decide +kernel
  have foundWider : Database.table ⟨"d", [wider]⟩ "t" = .ok wider := by decide +kernel
  have foundNarrower : Database.table ⟨"d", [narrower]⟩ "t" = .ok narrower := by decide +kernel
  refine ⟨ran, ?_, ?_⟩
  · obtain ⟨after, first⟩ := exists_after added.1 added.2
    obtain ⟨database, old, changed, selected, found, taken, now, makes, -, restores⟩ :=
      execute_alter visited readsAdding first
    obtain rfl := Option.some.inj selected
    obtain rfl := Except.ok.inj (foundTable.symm.trans found)
    rw [← Option.some.inj (congrArg Session.current taken)] at now
    obtain rfl := Except.ok.inj (foundWider.symm.trans now)
    obtain ⟨final, restored, same⟩ := restores rfl ⟨"id", rfl, by decide⟩
      "ALTER TABLE t DROP B;" "B" (by decide +kernel) (by decide)
    exact ⟨after, final, first, makes, restored,
      same "r" Disk.empty _ start demonstration (Disk.isBare_empty _) opened ran⟩
  · obtain ⟨after, first⟩ := exists_after dropped.1 dropped.2
    obtain ⟨database, old, changed, selected, found, taken, now, makes, -⟩ :=
      execute_alter visited readsDropping first
    obtain rfl := Option.some.inj selected
    obtain rfl := Except.ok.inj (foundTable.symm.trans found)
    rw [← Option.some.inj (congrArg Session.current taken)] at now
    obtain rfl := Except.ok.inj (foundNarrower.symm.trans now)
    exact ⟨after, first, makes⟩

end Session

end TextTables
