import Mathlib

/-!
# Work that stops at an access out of range

The strict form of some work has no answer at all, not even an error, once an index is out of
range or a cut goes through a character. The work itself goes by defaults there. Where the strict
form has an answer, step by step, the defaults are never used.
-/

namespace TextTables.Strict

variable {Failure First Second : Type}

/-- A check that needs no access. -/
def check (outcome : Except Failure First) : ExceptT Failure Option First :=
  ExceptT.mk (some outcome)

/-- An access, which ends all of the work if it is out of range. -/
def access (found : Option First) : ExceptT Failure Option First :=
  ExceptT.mk (found.map .ok)

@[simp]
theorem run_check (outcome : Except Failure First) : (check outcome).run = some outcome := rfl

theorem run_check_ok_bind (result : First) (next : First → ExceptT Failure Option Second) :
    (check (.ok result) >>= next).run = (next result).run := rfl

theorem run_check_error_bind (failure : Failure) (next : First → ExceptT Failure Option Second) :
    (check (.error failure) >>= next).run = some (.error failure) := rfl

/-- An access in range is no step of its own. -/
theorem run_access_bind {found : Option First} {result : First} (inRange : found = some result)
    (next : First → ExceptT Failure Option Second) :
    (access found >>= next).run = (next result).run := by
  rw [inRange]
  rfl

/-- Steps that have their answers have the answer of the whole sequence. -/
theorem run_bind {strict : ExceptT Failure Option First} {plain : Except Failure First}
    {strictNext : First → ExceptT Failure Option Second} {next : First → Except Failure Second}
    (first : strict.run = some plain)
    (second : ∀ result, plain = .ok result → (strictNext result).run = some (next result)) :
    (strict >>= strictNext).run = some (plain >>= next) := by
  rw [ExceptT.run_bind, first]
  cases plain with
  | error failure => rfl
  | ok result => exact second result rfl

theorem run_mapM {strict : First → ExceptT Failure Option Second}
    {plain : First → Except Failure Second} {items : List First}
    (each : ∀ item ∈ items, (strict item).run = some (plain item)) :
    (items.mapM strict).run = some (items.mapM plain) := by
  induction items with
  | nil => rfl
  | cons item rest inductionHypothesis =>
      rw [List.mapM_cons, List.mapM_cons]
      refine run_bind (each item List.mem_cons_self) fun found _ => ?_
      have others := inductionHypothesis fun other member => each other (.tail _ member)
      exact run_bind others fun more _ => rfl

/-- Accesses that are all in range come to the list of what they find. -/
theorem mapM_eq_some {look : First → Option Second} {plain : First → Second}
    {items : List First} (each : ∀ item ∈ items, look item = some (plain item)) :
    items.mapM look = some (items.map plain) := by
  induction items with
  | nil => rfl
  | cons item rest inductionHypothesis =>
      have others := inductionHypothesis fun other member => each other (.tail _ member)
      simp [List.mapM_cons, each item List.mem_cons_self, others]

end TextTables.Strict
