import TextTables.Proofs.Condition.Ordering
import TextTables.Proofs.Session.Finding
import TextTables.Proofs.Session.Queries
import TextTables.Proofs.Table.Partition

/-!
# Asking for larger keys

A query for the rows whose primary key is larger than an integer shows these rows, but for keys that
are rounded to the same double-precision number as the integer. No key below `2 ^ 53` is, and none
if the integer itself is smaller than that.
-/

namespace TextTables

open Text

namespace Table

/-- The primary key of a row, if the first cell is an integer. -/
def keyOf? (row : Row) : Option Int :=
  row.head?.bind Numeral.integer?

variable {table : Table} {asked token : String} {literal : Literal} {bound : Int}

/-- The rows with a larger key are shown, as far as the key is another number when rounded. -/
theorem select_greater (regular : table.Regular) (keyed : table.Keyed)
    (key : sameIgnoringCase asked primaryKey)
    (numbered : ∀ row ∈ table.rows, (keyOf? row).isSome)
    (accepted : Literal.ofToken token = .ok literal)
    (number : Numeral.integer? token = some bound) :
    table.select none (some (.comparison asked .greater literal)) =
      .ok ⟨table.columns, table.rows.filter fun row => (keyOf? row).any fun id =>
        bound < id && Binary64.ofInt id != Binary64.ofInt bound⟩ := by
  obtain ⟨front, known⟩ := keyed.position_eq_zero key
  have first : table.columnIndex? asked = some 0 := front ▸ columnIndex?_eq_position known
  have evaluable : (Condition.comparison asked .greater literal).IsEvaluable table := by
    intro _ column member
    rw [Condition.columns, List.mem_singleton] at member
    exact member ▸ known
  have evaluated := (Condition.mask_eq_ok_iff regular.wide).mpr ⟨evaluable, rfl⟩
  refine (select_all_eq_ok_iff regular).mpr ⟨_, evaluated, ?_⟩
  rw [marked_truth]
  refine congrArg (ResultSet.mk table.columns) (List.filter_congr fun row member => ?_)
  obtain ⟨id, keyId⟩ := Option.isSome_iff_exists.mp (numbered row member)
  obtain ⟨cell, start, writes⟩ := Option.bind_eq_some_iff.mp keyId
  rw [Condition.truth, cell?_of_columnIndex? first, ← List.head?_eq_getElem?, start, keyId,
    Option.any_some, Option.any_some, Bool.eq_iff_iff,
    (Comparator.holds_integers accepted writes number).1]
  simp

/-- Among small enough integers nothing is lost. -/
theorem filter_greater (small : (∀ row ∈ table.rows, ∀ id, keyOf? row = some id →
      id.natAbs < 2 ^ 53) ∨ bound.natAbs < 2 ^ 53) :
    (table.rows.filter fun row => (keyOf? row).any fun id =>
        bound < id && Binary64.ofInt id != Binary64.ofInt bound) =
      table.rows.filter fun row => (keyOf? row).any fun id => bound < id := by
  refine List.filter_congr fun row member => ?_
  cases keyId : keyOf? row with
  | none => rfl
  | some id =>
      have apart : bound < id → Binary64.ofInt id ≠ Binary64.ofInt bound := by
        intro less same
        have keyLarge := Binary64.le_natAbs_of_ofInt_eq same less.ne'
        have boundLarge := Binary64.le_natAbs_of_ofInt_eq same.symm less.ne
        obtain keys | bounds := small
        · have keySmall := keys row member id keyId
          omega
        · omega
      simpa using apart

end Table

namespace Session

open Comparator Table

/-- Comparisons of integers in any number of digits go by the double-precision numbers nearest to
them. That is the order of the integers themselves, except that different integers can be level, and
only if both have at least `2 ^ 53` for a magnitude and lie within one part in `2 ^ 53` of each
other or beyond the format. However the session came to a table whose keys are integers, as those
are that it gives out, a query for the keys above an integer shows exactly the rows with larger keys
that are not level with it. -/
theorem orders_integers :
    (∀ cell token literal, Literal.ofToken token = .ok literal → Kind.of cell = .integer →
      literal.kind = .integer →
      ∃ stored given, Numeral.integer? cell = some stored ∧ Numeral.integer? token = some given ∧
        (greater.holds cell literal ↔
          given < stored ∧ Binary64.ofInt stored ≠ Binary64.ofInt given) ∧
        (less.holds cell literal ↔
          stored < given ∧ Binary64.ofInt stored ≠ Binary64.ofInt given) ∧
        (greaterOrEqual.holds cell literal ↔
          given ≤ stored ∨ Binary64.ofInt stored = Binary64.ofInt given) ∧
        (lessOrEqual.holds cell literal ↔
          stored ≤ given ∨ Binary64.ofInt stored = Binary64.ofInt given) ∧
        (Binary64.ofInt stored = Binary64.ofInt given → stored ≠ given →
          2 ^ 53 ≤ stored.natAbs ∧ 2 ^ 53 ≤ given.natAbs ∧
            ((Binary64.ofInt given).natAbs < Binary64.infinity →
              2 ^ 53 * (stored - given).natAbs ≤ stored.natAbs + given.natAbs))) ∧
    (∀ key : Nat, Numeral.integer? (toString key) = some (key : Int)) ∧
    ∀ (session : Session) (root : Path) (visits : List (String × Disk)) (database : Database)
      (table : Table) (query name asked : String) (literal : Literal) (bound : Int) (disk : Disk),
      (executeEach ⟨⟨root⟩, none⟩ visits).2 = session → session.current = some database →
      database.table name = .ok table → table.Keyed →
      (∀ row ∈ table.rows, (keyOf? row).isSome) → isReserved name = false →
      Statement.parse query =
        .ok (.select .all name (some (.comparison asked .greater literal))) →
      sameIgnoringCase asked primaryKey → Numeral.integer? literal.spelling = some bound →
      ∃ rows, session.execute query disk =
          (.answered (.table ⟨table.columns, rows⟩), session, disk) ∧
        (rows = table.rows.filter fun row => (keyOf? row).any fun id =>
          bound < id && Binary64.ofInt id != Binary64.ofInt bound) ∧
        ((∀ row ∈ table.rows, ∀ id, keyOf? row = some id → id.natAbs < 2 ^ 53) ∨
            bound.natAbs < 2 ^ 53 →
          rows = table.rows.filter fun row => (keyOf? row).any fun id => bound < id) := by
  refine ⟨?_, Numeral.integer?_toString, ?_⟩
  · intro cell token literal accepted cellKind literalKind
    have tokenKind := (Literal.kind_eq_of_ofToken accepted).1.symm.trans literalKind
    obtain ⟨stored, writes⟩ :=
      Option.isSome_iff_exists.mp (Numeral.integer?_isSome_iff.mpr cellKind)
    obtain ⟨given, asks⟩ :=
      Option.isSome_iff_exists.mp (Numeral.integer?_isSome_iff.mpr tokenKind)
    obtain ⟨above, below, atLeast, atMost⟩ := holds_integers accepted writes asks
    refine ⟨stored, given, writes, asks, above, below, atLeast, atMost, fun same differ => ?_⟩
    exact ⟨Binary64.le_natAbs_of_ofInt_eq same differ,
      Binary64.le_natAbs_of_ofInt_eq same.symm differ.symm,
      fun finite => Binary64.close_of_ofInt_eq same (same ▸ finite)⟩
  · intro session root visits database table query name asked literal bound disk visited selected
      found keyed numbered free asks key number
    have regular := regular_of_found visited selected found
    obtain ⟨-, -, expressible⟩ := Statement.expressible_of_parse asks
    have accepted : Literal.ofToken literal.spelling = .ok literal :=
      (expressible _ rfl).writable.2.read
    have shown := select_greater regular keyed key numbered accepted number
    refine ⟨_, ?_, rfl, filter_greater⟩
    exact (execute_select_iff session asks).mpr
      ⟨rfl, rfl, free, database, table, _, selected, found, shown, rfl⟩

/-- A key that is larger by one is level with the even number before it, and the next one is not. -/
theorem orders_integers_large :
    let table : Table := ⟨"t", ["id", "a"],
      [["9007199254740993", "x"], ["9007199254740994", "y"]], 9007199254740994⟩
    let disk : Disk := ⟨[], [(["r"], .directory), (["r", "d"], .directory), (["r", "d", "t.tab"],
      .file "id\ta\n9007199254740993\tx\n9007199254740994\ty".toUTF8),
      (["r", "d", "t_config.tab"], .file "pk=9007199254740994".toUTF8)]⟩
    let session : Session := ⟨⟨⟨["r"]⟩⟩, some ⟨"d", [table]⟩⟩
    let query := "SELECT * FROM t WHERE id > 9007199254740992;"
    (executeEach ⟨⟨⟨["r"]⟩⟩, none⟩ [("USE d;", disk)]).2 = session ∧
      Statement.parse query = .ok (.select .all "t"
        (some (.comparison "id" .greater ⟨"9007199254740992", .integer⟩))) ∧
      session.execute query disk =
        (.answered (.table ⟨["id", "a"], [["9007199254740994", "y"]]⟩), session, disk) ∧
      Literal.ofToken "-7" = .ok ⟨"-7", .integer⟩ ∧ greater.holds "+10" ⟨"-7", .integer⟩ := by
  intro table disk session query
  have visited : (executeEach ⟨⟨⟨["r"]⟩⟩, none⟩ [("USE d;", disk)]).2 = session := by
    decide +kernel
  have asks : Statement.parse query = .ok (.select .all "t"
      (some (.comparison "id" .greater ⟨"9007199254740992", .integer⟩))) := by decide +kernel
  have found : Database.table ⟨"d", [table]⟩ "t" = .ok table := by decide +kernel
  have negative : Literal.ofToken "-7" = .ok ⟨"-7", .integer⟩ := by decide +kernel
  obtain ⟨numbers, -, queries⟩ := orders_integers
  obtain ⟨rows, shown, larger, -⟩ := queries session ⟨["r"]⟩ [("USE d;", disk)] ⟨"d", [table]⟩ table
    query "t" "id" ⟨"9007199254740992", .integer⟩ 9007199254740992 disk visited rfl found
    ⟨"id", rfl, by decide +kernel⟩ (by decide +kernel) (by decide +kernel) asks (by decide +kernel)
    (by decide +kernel)
  have last : rows = [["9007199254740994", "y"]] := larger.trans (by decide +kernel)
  obtain ⟨stored, given, writes, same, above, -⟩ := numbers "+10" "-7" ⟨"-7", .integer⟩ negative
    (by decide +kernel) rfl
  have ten : Numeral.integer? "+10" = some 10 := by decide +kernel
  have seven : Numeral.integer? "-7" = some (-7) := by decide +kernel
  cases writes.symm.trans ten
  cases same.symm.trans seven
  exact ⟨visited, asks, last ▸ shown, negative, above.mpr (by decide +kernel)⟩

/-- The successor of `2 ^ 53` is not greater than it, and is no row above it. -/
theorem not_orders_integers :
    (¬ ∀ (cell token : String) (literal : Literal) (stored given : Int),
      Literal.ofToken token = .ok literal → Numeral.integer? cell = some stored →
      Numeral.integer? token = some given → (greater.holds cell literal ↔ given < stored)) ∧
    ∃ (disk : Disk) (session : Session) (table : Table),
      (executeEach ⟨⟨⟨["r"]⟩⟩, none⟩ [("USE d;", disk)]).2 = session ∧
      session.current = some ⟨"d", [table]⟩ ∧ table.rows = [["9007199254740993", "x"]] ∧
      (session.execute "SELECT * FROM t WHERE id > 9007199254740992;" disk).1 =
        .answered (.table ⟨["id", "a"], []⟩) := by
  constructor
  · intro ordered
    have claimed := ordered "9007199254740993" "9007199254740992" ⟨"9007199254740992", .integer⟩
      9007199254740993 9007199254740992 (by decide +kernel) (by decide +kernel) (by decide +kernel)
    have level : ¬ greater.holds "9007199254740993" ⟨"9007199254740992", .integer⟩ := by
      decide +kernel
    exact level (claimed.mpr (by decide))
  · refine ⟨⟨[], [(["r"], .directory), (["r", "d"], .directory), (["r", "d", "t.tab"],
        .file "id\ta\n9007199254740993\tx".toUTF8)]⟩,
      ⟨⟨⟨["r"]⟩⟩, some ⟨"d", [⟨"t", ["id", "a"], [["9007199254740993", "x"]], 1⟩]⟩⟩,
      ⟨"t", ["id", "a"], [["9007199254740993", "x"]], 1⟩, ?_, rfl, rfl, ?_⟩ <;> decide +kernel

end Session

end TextTables
