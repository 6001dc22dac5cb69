import TextTables.Proofs.Session.KeyColumn
import TextTables.Proofs.Session.Lifetimes
import TextTables.Proofs.Store.Healing

/-!
# Primary keys of tables that lost theirs

A table that lost the file with its last primary key goes on behind the number of its rows. That can
lie below the keys of rows that are still there, once others were deleted, and then these keys are
given out again.
-/

namespace TextTables

open Location Text

namespace Life

/-- After any life of a store and the loss of any second files, a table goes on behind the last key
that it gave out, or behind the number of its rows if its second file is lost. However many rows are
inserted, its keys stay unique exactly if none of those that are given out is still there. -/
theorem hasUniqueKeys_healed_iff {path : String} {disk begin : Disk} {session : Session}
    (bare : disk.IsBare (.ofText path))
    (opened : Session.openAt (.ofText path) disk = .ok session begin)
    {events : List Event} {life : Life}
    (lived : Life.play (.ofText path) ⟨session, begin, .start⟩ events = life)
    {database : String} {lost healed : Disk}
    (loses : life.disk.LosesCounters (disk.endOf (.ofText path) ++ [database]) lost)
    {later used : Session} (resumed : later.store = ⟨.ofText path⟩) {selection : String}
    (reads : Statement.parse selection = .ok (.use database))
    (answered : later.execute selection lost = (.answered .done, used, healed))
    {texts : List String} (insertions : ∀ text ∈ texts, IsInsertion text) :
    let place := disk.endOf (.ofText path) ++ [database]
    let (exchanges, last, _) := used.executeAll healed texts
    ∃ final, last.current = some final ∧
      ∀ name count, life.tally.given database name = some count →
        ∃ table : Table, table.name = name ∧ table.lastKey = count ∧ table.Numbered ∧
          life.disk.Stores ((Path.ofText path).join database) place table ∧
          ∃ grown ∈ final.tables,
            let counter := lost.counterOf place table
            let inserted := exchanges.countP (Inserts name)
            Table.Continues { table with lastKey := counter } grown inserted ∧
              (grown.HasUniqueKeys ↔ ∀ key, counter < key → key ≤ counter + inserted →
                some (toString key) ∉ table.rows.map List.head?) ∧
              (counter = count → grown.HasUniqueKeys) := by
  have counted : life.Counted (.ofText path) (disk.endOf (.ofText path)) :=
    lived ▸ .of_openAt bare opened events
  have named : IsName database := Statement.wellSpelled_of_parse reads
  have orderly : lost.Orderly later.store.root (disk.endOf (.ofText path)) := by
    rw [resumed]
    exact loses.orderly counted.orderly
  obtain ⟨read, after, loaded, selected⟩ :=
    Session.loaded_of_answered reads (congrArg Prod.fst answered)
  rw [answered] at selected
  obtain ⟨wellNamed, -⟩ := Store.wellNamed_of_loadDatabase orderly named loaded
  obtain ⟨final, current, others⟩ :=
    Session.continues_of_executeAll wellNamed selected insertions healed
  refine ⟨final, current, fun name count given => ?_⟩
  obtain ⟨table, rfl, rfl, upheld⟩ := counted.counts database name count given
  have numbered := upheld.stored.sound.numbered
  have offers := loses.offers upheld.stored
  have member := Store.mem_of_loadDatabase orderly named (by rw [resumed]; exact offers) loaded
  obtain ⟨grown, inside, continues⟩ := others _ member
  have unique := continues.hasUniqueKeys_iff numbered.hasUniqueKeys
  refine ⟨table, rfl, rfl, numbered, upheld.stored, grown, inside, continues, unique, ?_⟩
  intro same
  refine unique.mpr fun key above _ => numbered.absent ?_
  exact same ▸ above

/-- A file with a last primary key is removed after the life of a new store. -/
theorem losesCounters_erase {path : String} {disk begin : Disk} {session : Session}
    (bare : disk.IsBare (.ofText path))
    (opened : Session.openAt (.ofText path) disk = .ok session begin) {events : List Event}
    {life : Life} (lived : Life.play (.ofText path) ⟨session, begin, .start⟩ events = life)
    (database name : String) :
    let place := disk.endOf (.ofText path) ++ [database]
    let file := place ++ [name ++ counterEnding]
    life.disk.node? file ≠ none → life.disk.node? file ≠ some .directory →
      life.disk.LosesCounters place (life.disk.erase file) := by
  have counted : life.Counted (.ofText path) (disk.endOf (.ofText path)) :=
    lived ▸ .of_openAt bare opened events
  exact .erase counted.orderly (List.prefix_append _ _)

/-- The key of the deleted row comes back, but not beside another row that carries it. -/
theorem hasUniqueKeys_healed_iff_deletion :
    let root := Path.ofText "r"
    ∃ begin used healed, Session.openAt root .empty = .ok ⟨⟨root⟩, none⟩ begin ∧
      let life := Life.play root ⟨⟨⟨root⟩, none⟩, begin, .start⟩ deletion
      let lost := life.disk.erase ["r", "d", "t_config.tab"]
      life.disk.LosesCounters ["r", "d"] lost ∧
        life.session.execute "USE d;" lost = (.answered .done, used, healed) ∧
        ∃ grown : Table, grown.HasUniqueKeys ∧ grown.rows = [["1", "x"], ["2", "z"]] ∧
          (used.executeAll healed ["INSERT INTO t VALUES ('z');"]).2.1.current =
            some ⟨"d", [grown]⟩ := by
  intro root
  let begin := Disk.empty.put ["r"] .directory
  let life := Life.play root ⟨⟨⟨root⟩, none⟩, begin, .start⟩ deletion
  let lost := life.disk.erase ["r", "d", "t_config.tab"]
  let used : Session := ⟨⟨root⟩, some ⟨"d", [⟨"t", ["id", "a"], [["1", "x"]], 1⟩]⟩⟩
  let healed := (life.session.execute "USE d;" lost).2.2
  let grown : Table := ⟨"t", ["id", "a"], [["1", "x"], ["2", "z"]], 2⟩
  have bare := Disk.isBare_empty root
  have opened : Session.openAt root .empty = .ok ⟨⟨root⟩, none⟩ begin := by decide +kernel
  obtain ⟨⟨given, resumed, stands, noDirectory⟩, gone, answered, current, once⟩ :
      (life.tally.given "d" "t" = some 2 ∧ life.session.store = ⟨root⟩ ∧
        life.disk.node? ["r", "d", "t_config.tab"] ≠ none ∧
        life.disk.node? ["r", "d", "t_config.tab"] ≠ some .directory) ∧
      lost.node? ["r", "d", "t" ++ counterEnding] = none ∧
      life.session.execute "USE d;" lost = (.answered .done, used, healed) ∧
      (used.executeAll healed ["INSERT INTO t VALUES ('z');"]).2.1.current =
        some ⟨"d", [grown]⟩ ∧
      (used.executeAll healed ["INSERT INTO t VALUES ('z');"]).1.countP (Inserts "t") = 1 := by
    decide +kernel
  have loses : life.disk.LosesCounters ["r", "d"] lost :=
    losesCounters_erase bare opened rfl "d" "t" stands noDirectory
  have insertions : ∀ text ∈ ["INSERT INTO t VALUES ('z');"], IsInsertion text := by
    simp only [List.mem_singleton, forall_eq]
    exact ⟨"t", [⟨"'z'", .string⟩], by decide +kernel⟩
  refine ⟨begin, used, healed, opened, loses, answered, grown, ?_, rfl, current⟩
  obtain ⟨final, same, tables⟩ := hasUniqueKeys_healed_iff bare opened rfl loses resumed
    (by decide +kernel) answered insertions
  cases current.symm.trans same
  obtain ⟨table, name, -, -, -, other, inside, continues, unique, -⟩ := tables "t" 2 given
  obtain rfl := List.mem_singleton.mp inside
  obtain ⟨inserted, rows, keys⟩ := continues.rows
  have single : inserted.length = 1 := by
    rw [← List.length_map, keys, Table.length_nextKeys]
    exact once
  have before : table.rows = [["1", "x"]] :=
    (List.append_inj' (show table.rows ++ inserted = [["1", "x"]] ++ [["2", "z"]] from rows.symm)
      single).1
  have counter : lost.counterOf (Disk.empty.endOf root ++ ["d"]) table = 1 := by
    have file : Disk.empty.endOf root ++ ["d"] ++ [table.name ++ counterEnding] =
        ["r", "d", "t" ++ counterEnding] := by
      rw [name]
      rfl
    rw [Disk.counterOf, file, gone, before]
    rfl
  refine unique.mpr fun key above below => ?_
  have least : 1 < key := counter ▸ above
  have most : key ≤ 1 + 1 := below.trans (Nat.add_le_add counter.le once.le)
  obtain rfl : key = 2 := by omega
  rw [before]
  decide

/-- Two rows are inserted, and the first one is deleted. -/
def firstDeleted : List Event :=
  [.command "CREATE DATABASE d;", .command "USE d;", .command "CREATE TABLE t (a);",
    .command "INSERT INTO t VALUES ('x');", .command "INSERT INTO t VALUES ('y');",
    .command "DELETE FROM t WHERE id == 1;"]

/-- The key of the row that is left is given out again. -/
theorem not_hasUniqueKeys_healed :
    let root := Path.ofText "r"
    ∃ begin used healed, Session.openAt root .empty = .ok ⟨⟨root⟩, none⟩ begin ∧
      let life := Life.play root ⟨⟨⟨root⟩, none⟩, begin, .start⟩ firstDeleted
      let lost := life.disk.erase ["r", "d", "t_config.tab"]
      life.tally.given "d" "t" = some 2 ∧ life.disk.LosesCounters ["r", "d"] lost ∧
        life.session.execute "USE d;" lost = (.answered .done, used, healed) ∧
        ∃ grown : Table, ¬ grown.HasUniqueKeys ∧ grown.rows = [["2", "y"], ["2", "z"]] ∧
          (used.execute "INSERT INTO t VALUES ('z');" healed).1 = .answered .done ∧
          (used.execute "INSERT INTO t VALUES ('z');" healed).2.1.current =
            some ⟨"d", [grown]⟩ := by
  intro root
  let begin := Disk.empty.put ["r"] .directory
  let life := Life.play root ⟨⟨⟨root⟩, none⟩, begin, .start⟩ firstDeleted
  let lost := life.disk.erase ["r", "d", "t_config.tab"]
  let used : Session := ⟨⟨root⟩, some ⟨"d", [⟨"t", ["id", "a"], [["2", "y"]], 1⟩]⟩⟩
  let healed := (life.session.execute "USE d;" lost).2.2
  let grown : Table := ⟨"t", ["id", "a"], [["2", "y"], ["2", "z"]], 2⟩
  have opened : Session.openAt root .empty = .ok ⟨⟨root⟩, none⟩ begin := by decide +kernel
  obtain ⟨⟨given, stands, noDirectory⟩, answered, done, current⟩ :
      (life.tally.given "d" "t" = some 2 ∧
        life.disk.node? ["r", "d", "t_config.tab"] ≠ none ∧
        life.disk.node? ["r", "d", "t_config.tab"] ≠ some .directory) ∧
      life.session.execute "USE d;" lost = (.answered .done, used, healed) ∧
      (used.execute "INSERT INTO t VALUES ('z');" healed).1 = .answered .done ∧
      (used.execute "INSERT INTO t VALUES ('z');" healed).2.1.current = some ⟨"d", [grown]⟩ := by
    decide +kernel
  have loses : life.disk.LosesCounters ["r", "d"] lost :=
    losesCounters_erase (Disk.isBare_empty root) opened rfl "d" "t" stands noDirectory
  exact ⟨begin, used, healed, opened, given, loses, answered, grown, by decide, rfl, done, current⟩

end Life

end TextTables
