import TextTables.Proofs.Statement.Expressing

/-!
# Literals in statements

Wherever a literal stands in a statement that was read from a text, in a row, an assignment or a
condition, it has passed the reader of values, which looked at its quotes.
-/

namespace TextTables

/-- All literals of the condition have their quotes. -/
def Condition.WellQuoted : Condition → Prop
  | comparison _ _ literal => literal.WellQuoted
  | combine _ left right => left.WellQuoted ∧ right.WellQuoted

/-- All literals of the statement have their quotes. -/
def Statement.WellQuoted : Statement → Prop
  | insert _ values => ∀ value ∈ values, value.WellQuoted
  | select _ _ condition => ∀ filter, condition = some filter → filter.WellQuoted
  | update _ assignments condition =>
      (∀ assignment ∈ assignments, assignment.2.WellQuoted) ∧ condition.WellQuoted
  | delete _ condition => condition.WellQuoted
  | _ => True

theorem Literal.Expressible.wellQuoted {literal : Literal} (expressible : literal.Expressible) :
    literal.WellQuoted :=
  wellQuoted_of_ofToken expressible.read

theorem Condition.IsWritable.wellQuoted {condition : Condition} (writable : condition.IsWritable) :
    condition.WellQuoted := by
  induction condition with
  | comparison column comparator literal => exact writable.2.wellQuoted
  | combine connective left right leftHypothesis rightHypothesis =>
      exact ⟨leftHypothesis writable.1, rightHypothesis writable.2⟩

/-- What can be expressed has quotes around its strings. -/
theorem Statement.Expressible.wellQuoted {statement : Statement}
    (expressible : statement.Expressible) : statement.WellQuoted := by
  cases statement with
  | insert table values => exact fun value member => (expressible.2.2 value member).wellQuoted
  | select columns table condition =>
      exact fun filter same => (expressible.2.2 filter same).writable.wellQuoted
  | update table assignments condition =>
      exact ⟨fun assignment member => (expressible.2.2.1 assignment member).2.wellQuoted,
        expressible.2.2.2.writable.wellQuoted⟩
  | delete table condition => exact expressible.2.writable.wellQuoted
  | _ => trivial

/-- Every text that is read gives a statement whose literals have their quotes. -/
theorem Statement.wellQuoted_of_parse {text : String} {statement : Statement}
    (read : parse text = .ok statement) : statement.WellQuoted :=
  (expressible_of_parse read).wellQuoted

end TextTables
