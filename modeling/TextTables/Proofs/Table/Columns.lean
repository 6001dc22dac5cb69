import Mathlib
import TextTables.Table

/-!
# Headers that are put together column by column

A header is accepted exactly as far as its columns can be told apart and are no words of the
language.
-/

namespace TextTables

open Text

/-- No two columns have the same name with ASCII letters in either case. -/
def Distinct (columns : List String) : Prop :=
  columns.Pairwise fun first second => ¬ sameIgnoringCase first second

namespace Table

theorem columnIndex?_isSome_iff {table : Table} {name : String} :
    (table.columnIndex? name).isSome ↔
      ∃ column ∈ table.columns, sameIgnoringCase column name := by
  simp [columnIndex?]

theorem addColumn_ok {table : Table} {name : String} (free : isReserved name = false)
    (fresh : ∀ column ∈ table.columns, ¬ sameIgnoringCase column name) :
    table.addColumn name =
      .ok { table with
        columns := table.columns ++ [name]
        rows := table.rows.map fun row => row ++ [nullCell] } := by
  have missing : (table.columnIndex? name).isSome = false := by
    rw [Bool.eq_false_iff, Ne, columnIndex?_isSome_iff]
    rintro ⟨column, member, same⟩
    exact fresh column member same
  simp [addColumn, free, missing]

theorem addColumn_eq_ok {table changed : Table} {name : String}
    (added : table.addColumn name = .ok changed) :
    isReserved name = false ∧ (∀ column ∈ table.columns, ¬ sameIgnoringCase column name) ∧
      changed = { table with
        columns := table.columns ++ [name]
        rows := table.rows.map fun row => row ++ [nullCell] } := by
  unfold addColumn at added
  split at added
  · cases added
  · rename_i free
    split at added
    · cases added
    · rename_i missing
      cases added
      refine ⟨by simpa using free, ?_, rfl⟩
      intro column member same
      exact missing (columnIndex?_isSome_iff.mpr ⟨column, member, same⟩)

/-- Columns that can be told apart are added one after the other to a table without rows. -/
theorem addColumns_ok {table : Table} {names : List String} (empty : table.rows = [])
    (free : ∀ name ∈ names, isReserved name = false)
    (distinct : Distinct (table.columns ++ names)) :
    table.addColumns names = .ok { table with columns := table.columns ++ names } := by
  induction names generalizing table with
  | nil => simp [addColumns, pure, Except.pure]
  | cons name rest inductionHypothesis =>
      have apart : ∀ column ∈ table.columns, ¬ sameIgnoringCase column name := by
        intro column member
        exact (List.pairwise_append.mp distinct).2.2 column member name List.mem_cons_self
      have first := addColumn_ok (free name List.mem_cons_self) apart
      have regrouped : Distinct ((table.columns ++ [name]) ++ rest) := by
        simpa [Distinct] using distinct
      have others := inductionHypothesis
        (rfl : ({ table with columns := table.columns ++ [name], rows := [] } : Table).rows = [])
        (fun other member => free other (List.mem_cons_of_mem _ member)) regrouped
      simp only [addColumns, List.foldlM_cons, first, empty, List.map_nil] at others ⊢
      simpa [bind, Except.bind, ← empty] using others

/-- A header that was accepted has all its columns, and they can be told apart. -/
theorem addColumns_eq_ok {table changed : Table} {names : List String} (empty : table.rows = [])
    (distinct : Distinct table.columns) (added : table.addColumns names = .ok changed) :
    (∀ name ∈ names, isReserved name = false) ∧ Distinct (table.columns ++ names) ∧
      changed = { table with columns := table.columns ++ names } := by
  induction names generalizing table with
  | nil =>
      cases added
      simpa using distinct
  | cons name rest inductionHypothesis =>
      unfold addColumns at added
      rw [List.foldlM_cons] at added
      cases first : table.addColumn name with
      | error error => simp [first, bind, Except.bind] at added
      | ok extended =>
          obtain ⟨free, fresh, shape⟩ := addColumn_eq_ok first
          have apart : Distinct extended.columns := by
            rw [shape]
            refine List.pairwise_append.mpr ⟨distinct, by simp, ?_⟩
            simpa using fresh
          have further : extended.addColumns rest = .ok changed := by
            simpa [first, bind, Except.bind, addColumns] using added
          obtain ⟨othersFree, whole, final⟩ :=
            inductionHypothesis (by simp [shape, empty]) apart further
          refine ⟨?_, ?_, ?_⟩
          · intro other member
            rcases List.mem_cons.mp member with rfl | later
            · exact free
            · exact othersFree other later
          · simpa [shape] using whole
          · simp [final, shape, empty]

theorem withColumns_eq_ok {name : String} {columns : List String} {table : Table}
    (made : withColumns name columns = .ok table) :
    (∀ column ∈ primaryKey :: columns, isReserved column = false) ∧
      Distinct (primaryKey :: columns) ∧ table = ⟨lowercase name, primaryKey :: columns, [], 0⟩ :=
  addColumns_eq_ok (rfl : (bare name 0).rows = []) List.Pairwise.nil made

end Table

end TextTables
