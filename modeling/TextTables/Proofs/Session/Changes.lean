import TextTables.Proofs.Statement.Spelling
import TextTables.Proofs.Table.Sound
import TextTables.Session

/-!
# Statements that change one table

Four kinds of statements change a table of the selected database and keep its name. They differ
in what they make of the table, which stays sound.
-/

namespace TextTables

open Text

namespace Statement

/-- The table that the statement changes, and what it makes of it. -/
def change? : Statement → Option (String × (Table → Except SchemaError Table))
  | alter name change column => some (name, change.apply column)
  | insert name values => some (name, fun table => table.insert (values.map Literal.text))
  | update name assignments condition =>
      some (name, fun table => table.update assignments condition)
  | delete name condition => some (name, fun table => table.delete condition)
  | _ => none

/-- The number of primary keys that the statement asks for. -/
def insertions : Statement → Nat
  | insert _ _ => 1
  | _ => 0

end Statement

variable {statement : Statement} {name : String} {change : Table → Except SchemaError Table}

theorem Session.perform_change (store : Store) (changes : statement.change? = some (name, change)) :
    perform store statement = (do
      ofExcept (checkName name)
      changeTable store name change
      return .done) := by
  cases statement <;> cases changes <;> rfl

/-- The four kinds of statements that change a table. -/
theorem Statement.change?_cases (changes : statement.change? = some (name, change)) :
    (∃ alteration column, statement = .alter name alteration column ∧
      change = alteration.apply column) ∨
    (∃ values, statement = .insert name values ∧
      change = fun table => table.insert (values.map Literal.text)) ∨
    (∃ assignments condition, statement = .update name assignments condition ∧
      change = fun table => table.update assignments condition) ∨
    ∃ condition, statement = .delete name condition ∧
      change = fun table => table.delete condition := by
  cases statement <;> cases changes
  case alter alteration column => exact .inl ⟨alteration, column, rfl, rfl⟩
  case insert values => exact .inr (.inl ⟨values, rfl, rfl⟩)
  case update assignments condition =>
    exact .inr (.inr (.inl ⟨assignments, condition, rfl, rfl⟩))
  case delete condition => exact .inr (.inr (.inr ⟨condition, rfl, rfl⟩))

theorem Statement.isName_of_change? (spelled : statement.WellSpelled)
    (changes : statement.change? = some (name, change)) : IsName name := by
  rcases change?_cases changes with ⟨alteration, column, rfl, -⟩ | ⟨values, rfl, -⟩ |
    ⟨assignments, condition, rfl, -⟩ | ⟨condition, rfl, -⟩
  · exact spelled.1
  · exact spelled.1
  · exact spelled.1
  · exact spelled

/-- A changed table keeps its name, and has given out one more key if a row is inserted. -/
theorem Table.name_of_change {table changed : Table}
    (changes : statement.change? = some (name, change)) (done : change table = .ok changed) :
    changed.name = table.name ∧ changed.lastKey = table.lastKey + statement.insertions := by
  rcases Statement.change?_cases changes with ⟨alteration, column, rfl, rfl⟩ | ⟨values, rfl, rfl⟩ |
    ⟨assignments, condition, rfl, rfl⟩ | ⟨condition, rfl, rfl⟩
  · cases alteration with
    | add =>
        obtain ⟨-, -, shape⟩ := addColumn_eq_ok done
        exact ⟨by rw [shape], by rw [shape]; rfl⟩
    | drop =>
        obtain ⟨-, index, -, shape⟩ := dropColumn_eq_ok done
        exact ⟨by rw [shape], by rw [shape]; rfl⟩
  · obtain ⟨-, shape⟩ := insert_eq_ok done
    exact ⟨by rw [shape], by rw [shape]; rfl⟩
  · obtain ⟨targets, mask, -, -, replaced⟩ := update_eq_ok done
    obtain ⟨-, shape⟩ := replaceRows_eq_ok replaced
    exact ⟨by rw [shape], by rw [shape]; rfl⟩
  · obtain ⟨mask, -, replaced⟩ := delete_eq_ok done
    obtain ⟨-, shape⟩ := replaceRows_eq_ok replaced
    exact ⟨by rw [shape], by rw [shape]; rfl⟩

theorem Table.Sound.of_change {table changed : Table} (sound : table.Sound)
    (spelled : statement.WellSpelled) (changes : statement.change? = some (name, change))
    (done : change table = .ok changed) : changed.Sound := by
  rcases Statement.change?_cases changes with ⟨alteration, column, rfl, rfl⟩ | ⟨values, rfl, rfl⟩ |
    ⟨assignments, condition, rfl, rfl⟩ | ⟨condition, rfl, rfl⟩
  · cases alteration with
    | add => exact sound.addColumn spelled.2 done
    | drop => exact sound.dropColumn done
  · refine sound.insert (fun cell member => ?_) done
    obtain ⟨value, inside, rfl⟩ := List.mem_map.mp member
    exact spelled.2 value inside
  · exact sound.update spelled.2 done
  · exact sound.delete done

theorem Table.Clean.of_change {table changed : Table} (clean : table.Clean)
    (spelled : statement.WellSpelled) (changes : statement.change? = some (name, change))
    (done : change table = .ok changed) : changed.Clean := by
  rcases Statement.change?_cases changes with ⟨alteration, column, rfl, rfl⟩ | ⟨values, rfl, rfl⟩ |
    ⟨assignments, condition, rfl, rfl⟩ | ⟨condition, rfl, rfl⟩
  · cases alteration with
    | add => exact clean.addColumn (isCell_of_isAlphanum (isPlain_iff.mp spelled.2).2) done
    | drop => exact clean.dropColumn done
  · refine clean.insert (fun cell member => ?_) done
    obtain ⟨value, inside, rfl⟩ := List.mem_map.mp member
    exact spelled.2 value inside
  · exact clean.update spelled.2 done
  · exact clean.delete done

end TextTables
