import TextTables.Condition.Evaluation
import TextTables.Proofs.Strict
import TextTables.Proofs.Table.Lookup

/-!
# What conditions come to

The evaluator goes through a condition with an agenda and a stack of results. On a row with one
cell for each column it comes to the truth of the condition, or to the leftmost column that the
table lacks. A visit leaves one more result on the stack, so that every result that is taken off
it has been put there before.
-/

namespace TextTables

open Strict Text

namespace Condition

/-- Whether the condition holds, as a recursion on its tree. -/
def truth (cell? : String → Option String) : Condition → Bool
  | comparison column comparator literal =>
      (cell? column).any fun cell => comparator.holds cell literal
  | combine .and left right => left.truth cell? && right.truth cell?
  | combine .or left right => left.truth cell? || right.truth cell?

/-- The leftmost column that the table lacks, or else the truth of the condition on the row. -/
def verdict (condition : Condition) (table : Table) (row : Row) : Except SchemaError Bool :=
  match condition.columns.find? table.lacks with
  | some column => .error (.unknownColumn column)
  | none => .ok (condition.truth (table.cell? row))

/-- Works the agenda off, and takes only cells of the row and results that are on the stack. At the
end one result has to be left. -/
def workOnStack? (table : Table) (row : Row) (agenda : List Task) (results : List Bool) :
    ExceptT SchemaError Option Bool :=
  match agenda, results with
  | [], [result] => pure result
  | [], _ => access none
  | .visit (comparison column comparator literal) :: agenda, results => do
      let index ← check (table.requireColumn column)
      let cell ← access row[index]?
      workOnStack? table row agenda (comparator.holds cell literal :: results)
  | .visit (combine connective left right) :: agenda, results =>
      workOnStack? table row (.visit left :: .visit right :: .join connective :: agenda) results
  | .join connective :: agenda, right :: left :: results =>
      workOnStack? table row agenda (connective.apply left right :: results)
  | .join _ :: _, _ => access none
termination_by (agenda.map Task.cost).foldr (· + ·) 0
decreasing_by all_goals simp only [List.map_cons, List.foldr_cons, Task.cost, size]; omega

def evaluateOnStack? (condition : Condition) (table : Table) (row : Row) :
    ExceptT SchemaError Option Bool :=
  workOnStack? table row [.visit condition] []

variable {table : Table} {row : Row}

/-- An agenda that never reaches below the stack comes to what it comes to with defaults there. -/
theorem work_of_workOnStack? {agenda : List Task} {results : List Bool}
    {outcome : Except SchemaError Bool}
    (answered : (workOnStack? table row agenda results).run = some outcome) :
    work table row agenda results = outcome := by
  fun_induction workOnStack? table row agenda results with
  | case1 result =>
      cases answered
      rw [work, List.headD_cons]
  | case2 results unbalanced => cases answered
  | case3 column comparator literal agenda results inductionHypothesis =>
      rw [work]
      cases required : table.requireColumn column with
      | error error =>
          rw [required, run_check_error_bind] at answered
          exact (Option.some.inj answered)
      | ok index =>
          rw [required, run_check_ok_bind] at answered
          cases looked : row[index]? with
          | none =>
              rw [looked] at answered
              cases answered
          | some cell =>
              rw [run_access_bind looked] at answered
              dsimp only
              rw [List.getD_eq_getElem?_getD, looked, Option.getD_some]
              exact inductionHypothesis cell answered
  | case4 connective left right agenda results inductionHypothesis =>
      rw [work]
      exact inductionHypothesis answered
  | case5 connective agenda right left results inductionHypothesis =>
      rw [work]
      exact inductionHypothesis answered
  | case6 connective agenda results short => cases answered

/-- A visit puts the meaning of the condition on the stack, whatever lies on it and is still to be
done, or ends the work with the error. -/
theorem workOnStack?_visit (wide : row.length = table.columns.length) (condition : Condition)
    (agenda : List Task) (results : List Bool) :
    (workOnStack? table row (.visit condition :: agenda) results).run =
      match condition.meaning table row with
      | .error error => some (.error error)
      | .ok held => (workOnStack? table row agenda (held :: results)).run := by
  induction condition generalizing agenda results with
  | comparison column comparator literal =>
      rw [workOnStack?, meaning]
      cases found : table.columnIndex? column with
      | none =>
          rw [Table.requireColumn, found, run_check_error_bind]
          rfl
      | some index =>
          have inside : index < row.length := wide ▸ Table.columnIndex?_lt found
          rw [Table.requireColumn, found, run_check_ok_bind,
            run_access_bind (List.getElem?_eq_getElem inside)]
          rw [← List.getD_eq_getElem _ "" inside]
          rfl
  | combine connective left right leftHypothesis rightHypothesis =>
      rw [workOnStack?, leftHypothesis, meaning]
      cases left.meaning table row with
      | error error => rfl
      | ok first =>
          dsimp only
          rw [rightHypothesis]
          cases right.meaning table row with
          | error error => rfl
          | ok second =>
              dsimp only
              rw [workOnStack?]
              rfl

theorem evaluateOnStack?_eq (wide : row.length = table.columns.length) (condition : Condition) :
    (condition.evaluateOnStack? table row).run = some (condition.meaning table row) := by
  rw [evaluateOnStack?, workOnStack?_visit wide]
  cases condition.meaning table row with
  | error error => rfl
  | ok held =>
      dsimp only
      rw [workOnStack?]
      rfl

theorem evaluate_eq_meaning (wide : row.length = table.columns.length) (condition : Condition) :
    condition.evaluate table row = condition.meaning table row :=
  work_of_workOnStack? (evaluateOnStack?_eq wide condition)

/-- The error is that of the leftmost column, since the left side is looked at first. -/
theorem meaning_eq_verdict (wide : row.length = table.columns.length) (condition : Condition) :
    condition.meaning table row = condition.verdict table row := by
  induction condition with
  | comparison column comparator literal =>
      rw [meaning, verdict, columns, List.find?_singleton, Table.requireColumn]
      cases found : table.columnIndex? column with
      | none =>
          rw [Table.lacks_iff.mpr found]
          rfl
      | some index =>
          have known : table.lacks column = false := by
            rw [Bool.eq_false_iff, Ne, Table.lacks_iff, found]
            exact nofun
          have inside : index < row.length := wide ▸ Table.columnIndex?_lt found
          rw [known, if_neg Bool.false_ne_true, truth, Table.cell?_of_columnIndex? found,
            List.getElem?_eq_getElem inside, ← List.getD_eq_getElem _ "" inside]
          rfl
  | combine connective left right leftHypothesis rightHypothesis =>
      rw [meaning, leftHypothesis, rightHypothesis]
      simp only [verdict, columns, List.find?_append]
      cases left.columns.find? table.lacks with
      | some column => rfl
      | none =>
          cases right.columns.find? table.lacks with
          | some column => rfl
          | none => cases connective <;> rfl

/-- The rows of the table do not matter. -/
theorem evaluate_congr {other : Table} (same : other.columns = table.columns)
    (wide : row.length = table.columns.length) (condition : Condition) :
    condition.evaluate other row = condition.evaluate table row := by
  have lacks : other.lacks = table.lacks := by
    funext name
    rw [Table.lacks, Table.lacks, same]
  have cells : other.cell? row = table.cell? row := by
    funext name
    rw [Table.cell?, Table.cell?, same]
  have verdict : condition.verdict other row = condition.verdict table row := by
    rw [Condition.verdict, Condition.verdict, lacks, cells]
  have otherWide : row.length = other.columns.length := by rw [same, wide]
  rw [evaluate_eq_meaning otherWide, meaning_eq_verdict otherWide, verdict,
    evaluate_eq_meaning wide, meaning_eq_verdict wide]

/-- On a row with one cell for each column, the evaluator answers with the leftmost column that the
table lacks or else with the truth of the condition, and takes no result off an empty stack. -/
theorem evaluate_eq_verdict (wide : row.length = table.columns.length) (condition : Condition) :
    condition.evaluate table row = condition.verdict table row ∧
      (condition.evaluateOnStack? table row).run = some (condition.verdict table row) := by
  have verdict := meaning_eq_verdict wide condition
  constructor
  · exact (evaluate_eq_meaning wide condition).trans verdict
  · rw [evaluateOnStack?_eq wide, verdict]

/-- Of two unknown columns the left one is reported, although the side before them holds. -/
theorem evaluate_eq_verdict_nested :
    let table : Table := ⟨"t", ["id", "Mark"], [], 0⟩
    let row : Row := ["1", "50"]
    let known := combine .or (comparison "ID" .greater ⟨"1", .integer⟩)
      (combine .and (comparison "mark" .equal ⟨"50", .integer⟩)
        (comparison "id" .notEqual ⟨"2", .integer⟩))
    let unknown := combine .or known
      (combine .and (comparison "age" .equal ⟨"1", .integer⟩)
        (comparison "size" .equal ⟨"1", .integer⟩))
    row.length = table.columns.length ∧
      known.evaluate table row = .ok true ∧
      (known.evaluateOnStack? table row).run = some (.ok true) ∧
      unknown.evaluate table row = .error (.unknownColumn "age") := by
  intro table row known unknown
  have wide : row.length = table.columns.length := rfl
  have holds : known.verdict table row = .ok true := by decide +kernel
  have missing : unknown.verdict table row = .error (.unknownColumn "age") := by decide +kernel
  obtain ⟨plain, stacked⟩ := evaluate_eq_verdict wide known
  refine ⟨wide, plain.trans holds, ?_, (evaluate_eq_verdict wide unknown).1.trans missing⟩
  rw [stacked, holds]

end Condition

end TextTables
