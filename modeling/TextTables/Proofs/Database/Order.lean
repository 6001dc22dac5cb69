import TextTables.Database
import TextTables.Proofs.Work

/-!
# The order of the tables

The tables of a database stand in the strict order of their keys. Such a list is determined by
which tables are in it, so that it does not matter in which order they came.
-/

namespace TextTables

open Text

namespace Database

/-- The tables stand in the order of their keys, and no two have the same one. -/
def Sorted (tables : List Table) : Prop :=
  tables.Pairwise fun first second => first.key < second.key

theorem Sorted.eq_of_mem_iff {first second : List Table} (left : Sorted first)
    (right : Sorted second) (same : ∀ table, table ∈ first ↔ table ∈ second) :
    first = second := by
  have irreflexive : Std.Irrefl fun first second : Table => first.key < second.key :=
    ⟨fun table => String.lt_irrefl table.key⟩
  have antisymmetric : Std.Antisymm fun first second : Table => first.key < second.key :=
    ⟨fun _ _ below above => absurd above (String.lt_asymm below)⟩
  exact List.Pairwise.eq_of_mem_iff left right same

/-- In such a list a table is determined by its key. -/
theorem Sorted.eq_of_key {tables : List Table} (sorted : Sorted tables) {first second : Table}
    (left : first ∈ tables) (right : second ∈ tables) (same : first.key = second.key) :
    first = second := by
  induction sorted with
  | nil => simp at left
  | cons least _ inductionHypothesis =>
      rcases List.mem_cons.mp left with rfl | leftLater
      · rcases List.mem_cons.mp right with rfl | rightLater
        · rfl
        · exact absurd same (String.ne_of_lt (least _ rightLater))
      · rcases List.mem_cons.mp right with rfl | rightLater
        · exact absurd same.symm (String.ne_of_lt (least _ leftLater))
        · exact inductionHypothesis leftLater rightLater

theorem mem_place {table other : Table} {tables : List Table} :
    other ∈ place table tables ↔ other = table ∨ other ∈ tables := by
  induction tables with
  | nil => simp [place]
  | cons first rest inductionHypothesis =>
      unfold place
      split
      · exact List.mem_cons
      · rw [List.mem_cons, inductionHypothesis, List.mem_cons]
        exact or_left_comm

theorem Sorted.place {table : Table} {tables : List Table} (sorted : Sorted tables)
    (fresh : ∀ other ∈ tables, other.key ≠ table.key) : Sorted (place table tables) := by
  induction sorted with
  | nil => exact List.pairwise_singleton _ _
  | @cons first rest least others inductionHypothesis =>
      unfold Database.place
      split
      · rename_i below
        refine List.pairwise_cons.mpr ⟨?_, List.pairwise_cons.mpr ⟨least, others⟩⟩
        intro other member
        rcases List.mem_cons.mp member with rfl | later
        · exact below
        · exact String.lt_trans below (least other later)
      · rename_i notBelow
        have above : first.key < table.key := by
          rw [String.not_lt] at notBelow
          refine String.not_le.mp fun below => ?_
          exact fresh first List.mem_cons_self (String.le_antisymm notBelow below)
        have further := inductionHypothesis fun other member =>
          fresh other (List.mem_cons_of_mem _ member)
        refine List.pairwise_cons.mpr ⟨?_, further⟩
        intro other member
        rcases mem_place.mp member with rfl | later
        · exact above
        · exact least other later

theorem addTable_ok {database : Database} {table : Table}
    (fresh : ∀ other ∈ database.tables, other.key ≠ table.key) :
    database.addTable table =
      .ok { database with tables := Database.place table database.tables } := by
  have free : (database.tables.any fun other => other.key == table.key) = false := by
    simpa using fresh
  simp [addTable, free]

theorem Sorted.update {tables : List Table} (sorted : Sorted tables) (table : Table) :
    Sorted (tables.map fun other => if other.key = table.key then table else other) := by
  refine List.pairwise_map.mpr (sorted.imp ?_)
  intro first second below
  have kept : ∀ other : Table,
      (if other.key = table.key then table else other).key = other.key := by
    intro other
    split
    · rename_i same
      exact same.symm
    · rfl
  rw [kept, kept]
  exact below

theorem mem_update {database : Database} {table other : Table}
    (present : ∃ old ∈ database.tables, old.key = table.key) :
    other ∈ (database.update table).tables ↔
      other = table ∨ (other ∈ database.tables ∧ other.key ≠ table.key) := by
  simp only [update, List.mem_map]
  constructor
  · rintro ⟨old, member, rfl⟩
    split
    · exact .inl rfl
    · rename_i different
      exact .inr ⟨member, different⟩
  · rintro (rfl | ⟨member, different⟩)
    · obtain ⟨old, member, same⟩ := present
      exact ⟨old, member, if_pos same⟩
    · exact ⟨other, member, if_neg different⟩

theorem find?_eq_some {database : Database} {name : String} {table : Table}
    (found : database.find? name = some table) :
    table ∈ database.tables ∧ table.key = lowercase name := by
  have same := List.find?_some found
  exact ⟨List.mem_of_find?_eq_some found, by simpa using same⟩

/-- In the order of their keys, a table is found under its own one. -/
theorem find?_of_mem {database : Database} {name : String} {table : Table}
    (sorted : Sorted database.tables) (member : table ∈ database.tables)
    (called : table.key = lowercase name) : database.find? name = some table := by
  cases found : database.find? name with
  | none =>
      have missing := List.find?_eq_none.mp found table member
      exact absurd called (by simpa using missing)
  | some other =>
      obtain ⟨inside, same⟩ := find?_eq_some found
      rw [sorted.eq_of_key inside member (same.trans called.symm)]

theorem not_hasTable_iff {database : Database} {name : String} :
    ¬ database.hasTable name ↔ ∀ other ∈ database.tables, other.key ≠ lowercase name := by
  simp [hasTable, find?, List.find?_isSome]

theorem find?_of_table {database : Database} {name : String} {table : Table}
    (found : database.table name = .ok table) : database.find? name = some table := by
  unfold Database.table at found
  split at found
  · rename_i looked
    cases found
    exact looked
  · cases found

/-- A table that is put in the place of another one is found under the name of that one. -/
theorem find?_update (database : Database) (changed : Table) (name : String) :
    (database.update changed).find? name =
      (database.find? name).map
        fun table => if table.key = changed.key then changed else table := by
  have kept : ∀ table : Table,
      ((if table.key = changed.key then changed else table).key == lowercase name) =
        (table.key == lowercase name) := by
    intro table
    split
    · rename_i same
      rw [same]
    · rfl
  simp only [find?, update, List.find?_map, Function.comp_def, kept]

theorem table_update {database : Database} {changed table : Table} {name : String}
    (found : database.table name = .ok table) (same : table.key = changed.key) :
    (database.update changed).table name = .ok changed := by
  have looked : (database.update changed).find? name = some changed := by
    rw [find?_update, find?_of_table found]
    simp [same]
  unfold Database.table
  rw [looked]

theorem table_eq_ok {database : Database} {name : String} {table : Table}
    (found : database.table name = .ok table) :
    table ∈ database.tables ∧ table.key = lowercase name :=
  find?_eq_some (find?_of_table found)

theorem requireFree_eq_ok {database : Database} {name : String}
    (free : database.requireFree name = .ok ()) :
    ∀ other ∈ database.tables, other.key ≠ lowercase name := by
  unfold requireFree at free
  split at free
  · cases free
  · rename_i missing
    exact not_hasTable_iff.mp missing

theorem removeTable_ok {database : Database} {name : String} {table : Table}
    (found : database.table name = .ok table) :
    database.removeTable name = .ok (table, { database with
      tables := database.tables.filter fun other => other.key != table.key }) := by
  simp [removeTable, found, bind, Except.bind, pure, Except.pure]

end Database

end TextTables
