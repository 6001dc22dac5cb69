import TextTables.Join
import TextTables.Proofs.Database.Order

/-!
# The columns that a join compares

Each of the two attributes of a join is bound to one table: to its own one if it names one, and else
to the one that is left. The binding does not depend on which table comes first, nor on which
attribute does as long as one of them names its table.
-/

namespace TextTables

/-- The attribute can be a column of the table of that name. -/
def Attribute.Fits (reference : Attribute) (table : String) : Prop :=
  reference.table = none ∨ reference.table = some table

/-- The columns that two attributes name in two tables. Two attributes without tables go by their
order, and of two tables with one name the first one is meant. -/
inductive JoinBinding.Binds (first second : String) (left right : Attribute) :
    String → String → Prop
  | inOrder (own : left.Fits first) (other : right.Fits second)
      (later : right.table ≠ some first) : Binds first second left right left.column right.column
  | crossed (own : right.Fits first) (other : left.Fits second) (later : left.table ≠ some first)
      (qualified : left.table ≠ none ∨ right.table ≠ none) :
      Binds first second left right right.column left.column

namespace JoinBinding

variable {first second firstColumn secondColumn : String} {left right : Attribute}

theorem binds_iff :
    Binds first second left right firstColumn secondColumn ↔
      (left.Fits first ∧ right.Fits second ∧ right.table ≠ some first ∧
        firstColumn = left.column ∧ secondColumn = right.column) ∨
      (right.Fits first ∧ left.Fits second ∧ left.table ≠ some first ∧
        (left.table ≠ none ∨ right.table ≠ none) ∧
        firstColumn = right.column ∧ secondColumn = left.column) := by
  constructor
  · rintro (⟨own, other, later⟩ | ⟨own, other, later, qualified⟩)
    · exact .inl ⟨own, other, later, rfl, rfl⟩
    · exact .inr ⟨own, other, later, qualified, rfl, rfl⟩
  · rintro (⟨own, other, later, rfl, rfl⟩ | ⟨own, other, later, qualified, rfl, rfl⟩)
    · exact .inOrder own other later
    · exact .crossed own other later qualified

theorem columns_eq_ok_iff :
    columns first second [left, right] = .ok (firstColumn, secondColumn) ↔
      Binds first second left right firstColumn secondColumn := by
  obtain ⟨leftTable, leftColumn⟩ := left
  obtain ⟨rightTable, rightColumn⟩ := right
  rw [binds_iff]
  simp only [columns, List.foldlM_cons, List.foldlM_nil, add, empty, Attribute.Fits, bind,
    Except.bind, pure, Except.pure]
  -- Each attribute is bare, or names the first table, the second one or neither.
  rcases leftTable with - | leftTable <;> rcases rightTable with - | rightTable
  · simp [resolve, eq_comm]
  all_goals
    dsimp only
    split_ifs <;> simp_all [resolve, eq_comm]

/-- Other tables first, and their attributes with them. -/
theorem Binds.swap (binds : Binds first second left right firstColumn secondColumn)
    (different : first ≠ second) : Binds second first right left secondColumn firstColumn := by
  have apart : ∀ {reference : Attribute} {table other : String}, reference.Fits table →
      table ≠ other → reference.table ≠ some other := by
    rintro reference table other (bare | named) distinct same
    · cases bare.symm.trans same
    · cases named.symm.trans same
      exact distinct rfl
  cases binds with
  | inOrder own other later => exact .inOrder other own (apart own different)
  | crossed own other later qualified =>
      exact .crossed other own (apart own different) qualified.symm

/-- The attributes in the other order, if that order does not count. -/
theorem Binds.turn (binds : Binds first second left right firstColumn secondColumn)
    (qualified : left.table ≠ none ∨ right.table ≠ none) :
    Binds first second right left firstColumn secondColumn := by
  cases binds with
  | inOrder own other later => exact .crossed own other later qualified.symm
  | crossed own other later _ => exact .inOrder own other later

end JoinBinding

/-- The attribute is the column at the index of the table with the name. -/
structure Attribute.BoundTo (reference : Attribute) (name : String) (table : Table)
    (index : Nat) : Prop where
  fits : reference.Fits name
  found : table.columnIndex? reference.column = some index

/-- The database has the two tables, and the attributes name a column of each. -/
structure Database.BindsJoin (database : Database) (first second : String)
    (left right : Attribute) (firstTable secondTable : Table) (firstKey secondKey : Nat) :
    Prop where
  firstFound : database.table first = .ok firstTable
  secondFound : database.table second = .ok secondTable
  bound : ∃ firstColumn secondColumn,
    JoinBinding.Binds first second left right firstColumn secondColumn ∧
      firstTable.columnIndex? firstColumn = some firstKey ∧
      secondTable.columnIndex? secondColumn = some secondKey

namespace Database.BindsJoin

variable {database : Database} {first second : String} {left right : Attribute}
  {firstTable secondTable : Table} {firstKey secondKey : Nat}

theorem swap
    (binds : database.BindsJoin first second left right firstTable secondTable firstKey secondKey)
    (different : first ≠ second) :
    database.BindsJoin second first right left secondTable firstTable secondKey firstKey := by
  obtain ⟨firstColumn, secondColumn, columns, atFirst, atSecond⟩ := binds.bound
  exact ⟨binds.secondFound, binds.firstFound,
    secondColumn, firstColumn, columns.swap different, atSecond, atFirst⟩

theorem turn
    (binds : database.BindsJoin first second left right firstTable secondTable firstKey secondKey)
    (qualified : left.table ≠ none ∨ right.table ≠ none) :
    database.BindsJoin first second right left firstTable secondTable firstKey secondKey := by
  obtain ⟨firstColumn, secondColumn, columns, atFirst, atSecond⟩ := binds.bound
  exact ⟨binds.firstFound, binds.secondFound,
    firstColumn, secondColumn, columns.turn qualified, atFirst, atSecond⟩

/-- Each attribute is bound to one table, and if it names a table, to that one. -/
theorem boundTo
    (binds : database.BindsJoin first second left right firstTable secondTable firstKey secondKey) :
    (left.BoundTo first firstTable firstKey ∧ right.BoundTo second secondTable secondKey) ∨
      (right.BoundTo first firstTable firstKey ∧ left.BoundTo second secondTable secondKey) := by
  obtain ⟨firstColumn, secondColumn, columns, atFirst, atSecond⟩ := binds.bound
  cases columns with
  | inOrder own other later => exact .inl ⟨⟨own, atFirst⟩, ⟨other, atSecond⟩⟩
  | crossed own other later qualified => exact .inr ⟨⟨own, atFirst⟩, ⟨other, atSecond⟩⟩

end Database.BindsJoin

theorem Database.join_eq_ok_iff {database : Database} {first second : String}
    {left right : Attribute} {result : ResultSet} :
    database.join first second [left, right] = .ok result ↔
      ∃ firstTable secondTable firstKey secondKey,
        database.BindsJoin first second left right firstTable secondTable firstKey secondKey ∧
          result = firstTable.join secondTable firstKey secondKey := by
  have required : ∀ {table : Table} {name : String} {index : Nat},
      (table.requireColumn name).mapError Error.schema = .ok index ↔
        table.columnIndex? name = some index :=
    Work.mapError_eq_ok_iff.trans Table.requireColumn_eq_ok_iff
  simp only [join, Work.except_bind_eq_ok_iff, required, Prod.exists,
    JoinBinding.columns_eq_ok_iff]
  constructor
  · rintro ⟨firstTable, firstFound, secondTable, secondFound, firstColumn, secondColumn, columns,
      firstKey, atFirst, secondKey, atSecond, done⟩
    exact ⟨firstTable, secondTable, firstKey, secondKey,
      ⟨firstFound, secondFound, firstColumn, secondColumn, columns, atFirst, atSecond⟩,
      (Except.ok.inj done).symm⟩
  · rintro ⟨firstTable, secondTable, firstKey, secondKey,
      ⟨firstFound, secondFound, firstColumn, secondColumn, columns, atFirst, atSecond⟩, rfl⟩
    exact ⟨firstTable, firstFound, secondTable, secondFound, firstColumn, secondColumn, columns,
      firstKey, atFirst, secondKey, atSecond, rfl⟩

end TextTables
