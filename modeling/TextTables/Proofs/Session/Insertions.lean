import TextTables.Proofs.Session.Effects
import TextTables.Proofs.Session.Runs
import TextTables.Proofs.Store.Upkeep
import TextTables.Proofs.Table.Numbering

/-!
# Insertions one after the other

Each insertion that is answered appends a row to one table of the selected database, and one that
fails changes nothing in memory. So every table goes on with as many rows as were inserted into it.
-/

namespace TextTables

open Text

/-- The text is that of a statement that inserts a row. -/
def IsInsertion (text : String) : Prop :=
  ∃ name values, Statement.parse text = .ok (.insert name values)

/-- A row was inserted into the table. -/
def Inserts (name : String) : String × Response → Bool
  | (text, .answered _) =>
      match Statement.parse text with
      | .ok (.insert table _) => table = name
      | _ => false
  | (_, .failed _ _) => false

namespace Session

variable {session : Session} {database : Database} {text name : String} {values : List Literal}

/-- An answered insertion changes a table of this name, and one that fails changes nothing. -/
theorem execute_insertion (selected : session.current = some database)
    (reads : Statement.parse text = .ok (.insert name values)) (disk : Disk) :
    match session.execute text disk with
    | (.answered _, next, _) => ∃ table changed, database.table name = .ok table ∧
        table.insert (values.map Literal.text) = .ok changed ∧
        next.current = some (database.update changed)
    | (.failed _ _, next, _) => next = session := by
  rcases execute_change session reads rfl disk with ⟨error, after, same⟩ |
    ⟨before, table, changed, after, current, found, done, -, same⟩
  · rw [same]
  · rw [same]
    obtain rfl : before = database := Option.some.inj (current.symm.trans selected)
    exact ⟨table, changed, found, done, rfl⟩

/-- Every table goes on with the row that is inserted into it, or as it is. -/
theorem continues_of_execute (wellNamed : database.WellNamed)
    (selected : session.current = some database) (isInsertion : IsInsertion text) (disk : Disk) :
    ∃ next, (session.execute text disk).2.1.current = some next ∧ next.WellNamed ∧
      ∀ table ∈ database.tables, ∃ later ∈ next.tables, table.Continues later
        (if Inserts table.name (text, (session.execute text disk).1) then 1 else 0) := by
  obtain ⟨name, values, reads⟩ := isInsertion
  have changes : (Statement.insert name values).change? = some (name, _) := rfl
  have named := Statement.isName_of_change? (Statement.wellSpelled_of_parse reads) changes
  have effect := execute_insertion selected reads disk
  split at effect
  · rename_i reply answer next after executed
    obtain ⟨table, changed, found, inserted, now⟩ := effect
    obtain ⟨member, key⟩ := Database.table_eq_ok found
    have called : table.name = name := by
      rw [← (wellNamed.tables table member).lower, ← named.lower]
      exact key
    have continues := Table.Continues.insert inserted
    have keys : table.key = changed.key := by rw [Table.key, Table.key, continues.name]
    have present : ∃ old ∈ database.tables, old.key = changed.key := ⟨table, member, keys⟩
    rw [executed]
    refine ⟨database.update changed, now, ?_, fun other inside => ?_⟩
    · exact wellNamed.update (continues.name ▸ called ▸ named) present
    · by_cases same : other.name = name
      · obtain rfl : other = table := wellNamed.sorted.eq_of_key inside member (by
          rw [Table.key, Table.key, same, called])
        refine ⟨changed, (Database.mem_update present).mpr (.inl rfl), ?_⟩
        simpa [Inserts, reads, same] using continues
      · refine ⟨other, (Database.mem_update present).mpr (.inr ⟨inside, ?_⟩), ?_⟩
        · intro sameKey
          apply same
          rw [← (wellNamed.tables other inside).lower, ← called,
            ← (wellNamed.tables table member).lower]
          exact sameKey.trans keys.symm
        · simpa [Inserts, reads, Ne.symm same] using Table.Continues.refl other
  · rename_i reply activity error next after executed
    rw [executed]
    exact ⟨database, effect ▸ selected, wellNamed, fun table member =>
      ⟨table, member, .refl table⟩⟩

theorem continues_of_executeAll {texts : List String} (wellNamed : database.WellNamed)
    (selected : session.current = some database)
    (insertions : ∀ text ∈ texts, IsInsertion text) (disk : Disk) :
    ∃ last, (session.executeAll disk texts).2.1.current = some last ∧
      ∀ table ∈ database.tables, ∃ later ∈ last.tables, table.Continues later
        ((session.executeAll disk texts).1.countP (Inserts table.name)) := by
  induction texts generalizing session database disk with
  | nil => exact ⟨database, selected, fun table member => ⟨table, member, .refl table⟩⟩
  | cons text rest inductionHypothesis =>
      obtain ⟨next, now, nextNamed, step⟩ :=
        continues_of_execute wellNamed selected (insertions text List.mem_cons_self) disk
      obtain ⟨last, final, others⟩ := inductionHypothesis nextNamed now
        (fun other member => insertions other (.tail _ member)) (session.execute text disk).2.2
      refine ⟨last, final, fun table member => ?_⟩
      obtain ⟨middle, between, first⟩ := step table member
      obtain ⟨later, inside, second⟩ := others middle between
      refine ⟨later, inside, ?_⟩
      rw [first.name] at second
      simp only [executeAll, List.countP_cons, Nat.add_comm (List.countP _ _)]
      exact first.trans second

end Session

end TextTables
