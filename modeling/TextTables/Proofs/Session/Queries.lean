import TextTables.Proofs.Session.Effects

/-!
# What queries answer

A query is answered from the selected database alone. It changes nothing, in memory as on the disk.
-/

namespace TextTables

/-- The columns that a selection names, if it does not ask for all of them. -/
def Selection.names? : Selection → Option (List String)
  | all => none
  | only names => some names

namespace Session

open Work

variable {session next : Session} {statement : Statement} {command name : String}
  {disk after : Disk} {answer : Answer}

theorem selected_eq_ok_iff {space later : Workspace} {database : Database} :
    SessionM.selected space = .ok database later ↔
      space.current = some database ∧ later = space := by
  obtain ⟨current, disk⟩ := space
  cases current with
  | none => exact ⟨nofun, nofun⟩
  | some held =>
      have done : SessionM.selected ⟨some held, disk⟩ = .ok held ⟨some held, disk⟩ := rfl
      rw [done]
      simp [eq_comm]

theorem execute_answered_iff (session : Session)
    (reads : Statement.parse command = .ok statement) :
    session.execute command disk = (.answered answer, next, after) ↔
      ∃ space, perform session.store statement ⟨session.current, disk⟩ = .ok answer space ∧
        next = { session with current := space.current } ∧ after = space.disk := by
  simp only [execute, reads]
  cases perform session.store statement ⟨session.current, disk⟩ with
  | ok found space => simp [eq_comm]
  | error error space => simp

theorem execute_select_iff (session : Session) {columns : Selection}
    {condition : Option Condition}
    (reads : Statement.parse command = .ok (.select columns name condition)) :
    session.execute command disk = (.answered answer, next, after) ↔
      next = session ∧ after = disk ∧ isReserved name = false ∧
        ∃ database table result, session.current = some database ∧
          database.table name = .ok table ∧ table.select columns.names? condition = .ok result ∧
          answer = .table result := by
  rw [execute_answered_iff session reads]
  simp only [perform, query, bind_eq_ok_iff, ofExcept_eq_ok_iff, checkName_eq_ok_iff,
    selected_eq_ok_iff, mapError_eq_ok_iff, pure_apply, EStateM.Result.ok.injEq]
  constructor
  · rintro ⟨_, ⟨_, _, ⟨free, rfl⟩, result, _, ⟨database, _, ⟨selected, rfl⟩, table, _,
      ⟨found, rfl⟩, shown, rfl⟩, rfl, rfl⟩, rfl, rfl⟩
    refine ⟨rfl, rfl, free, database, table, result, selected, found, ?_, rfl⟩
    cases columns <;> exact shown
  · rintro ⟨rfl, rfl, free, database, table, result, selected, found, shown, rfl⟩
    refine ⟨_, ⟨(), _, ⟨free, rfl⟩, result, _, ⟨database, _, ⟨selected, rfl⟩, table, _,
      ⟨found, rfl⟩, ?_, rfl⟩, rfl, rfl⟩, rfl, rfl⟩
    cases columns <;> exact shown

theorem execute_join_iff (session : Session) {first second : String} {left right : Attribute}
    (reads : Statement.parse command = .ok (.join first second left right)) :
    session.execute command disk = (.answered answer, next, after) ↔
      next = session ∧ after = disk ∧ isReserved first = false ∧ isReserved second = false ∧
        ∃ database result, session.current = some database ∧
          database.join first second [left, right] = .ok result ∧ answer = .table result := by
  rw [execute_answered_iff session reads]
  simp only [perform, bind_eq_ok_iff, ofExcept_eq_ok_iff, checkName_eq_ok_iff, selected_eq_ok_iff,
    pure_apply, EStateM.Result.ok.injEq]
  constructor
  · rintro ⟨_, ⟨_, _, ⟨firstFree, rfl⟩, _, _, ⟨secondFree, rfl⟩, database, _, ⟨selected, rfl⟩,
      result, _, ⟨joined, rfl⟩, rfl, rfl⟩, rfl, rfl⟩
    exact ⟨rfl, rfl, firstFree, secondFree, database, result, selected, joined, rfl⟩
  · rintro ⟨rfl, rfl, firstFree, secondFree, database, result, selected, joined, rfl⟩
    exact ⟨_, ⟨(), _, ⟨firstFree, rfl⟩, (), _, ⟨secondFree, rfl⟩, database, _, ⟨selected, rfl⟩,
      result, _, ⟨joined, rfl⟩, rfl, rfl⟩, rfl, rfl⟩

end Session

end TextTables
