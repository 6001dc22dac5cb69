import TextTables.Proofs.Statement.Productions

/-!
# What statements can express

A statement that was read from a text can be expressed: its names are in lower case, its columns
and literals have passed their readers, its lists are not empty where an item was read, and its
conditions have passed both counts.
-/

namespace TextTables

open Text

/-- Whatever the reader reads has the property. -/
def Reader.Yields {α : Type} (reader : Reader α) (property : α → Prop) : Prop :=
  ∀ tokens result rest, reader tokens = .ok (result, rest) → property result

/-- Whatever the step reads has the property. -/
def Step.Yields {α : Type} (step : Step α) (property : α → Prop) : Prop :=
  ∀ tokens result rest, step tokens = .ok (result, rest) → property result

theorem isName_of_nameOfToken {part : Part} {token : Token} {name : String}
    (read : nameOfToken part token = .ok name) : IsName name := by
  unfold nameOfToken at read
  split at read
  · rename_i plain
    cases read
    exact isName_lowercase plain
  · cases read

/-- A reference is a column, or a table and a column with a point between them. -/
theorem Attribute.expressible_of_ofToken {token : Token} {reference : Attribute}
    (read : ofToken token = .ok reference) : reference.Expressible := by
  obtain ⟨spelled, written, rfl, rfl⟩ := ofToken_eq_ok read
  refine ⟨?_, written.column⟩
  rintro name named
  obtain ⟨table, spelledTable, rfl⟩ := Option.map_eq_some_iff.mp named
  exact isName_lowercase (written.table table spelledTable)

theorem Literal.expressible_of_ofValue {token : Token} {literal : Literal}
    (read : ofValue token = .ok literal) : literal.Expressible := by
  unfold ofValue at read
  split at read
  · rename_i allowed
    have spelling := (kind_eq_of_ofToken read).2
    exact ⟨spelling ▸ allowed, spelling ▸ read⟩
  · cases read

/-- All items of a list have what the step yields. -/
theorem Step.Lists.forall_mem {α : Type} {item : Step α} {tokens rest : List Token}
    {results : List α} {property : α → Prop} (listed : Lists item tokens results rest)
    (each : Yields item property) : results ≠ [] ∧ ∀ result ∈ results, property result := by
  induction listed with
  | last found =>
      exact ⟨List.cons_ne_nil _ _, List.forall_mem_singleton.mpr (each _ _ _ found)⟩
  | more found spelled further inductionHypothesis =>
      exact ⟨List.cons_ne_nil _ _,
        List.forall_mem_cons.mpr ⟨each _ _ _ found, inductionHypothesis.2⟩⟩

namespace Condition

/-- The condition can be written with the given number of comparisons, and the parentheses that it
needs are not deeper than the bound. -/
structure Fits (condition : Condition) (terms needed bound : Nat) : Prop where
  writable : condition.IsWritable
  counted : condition.terms = terms
  shallow : needed ≤ bound

theorem Comparison.isWritable (leaf : Comparison) : leaf.condition.IsWritable := by
  have value : Literal.ofValue ⟨leaf.value⟩ = .ok ⟨leaf.value, Kind.of leaf.value⟩ :=
    Literal.ofValue_eq_ok_iff.mpr ⟨leaf.allowed, rfl⟩
  exact ⟨leaf.written.column, Literal.expressible_of_ofValue value⟩

mutual

/-- A condition needs no more parentheses than the tree that it was derived from. -/
theorem Clause.fits (clause : Clause) :
    clause.condition.Fits clause.comparisons.length clause.condition.nesting clause.nesting := by
  cases clause with
  | alone operand =>
      obtain ⟨writable, counted, shallow⟩ := operand.fits
      simp only [Clause.condition, Clause.comparisons, Clause.nesting]
      exact ⟨writable, counted, (nesting_le_operandNesting _).trans shallow⟩
  | joined operand link clause =>
      obtain ⟨writable, counted, shallow⟩ := operand.fits
      obtain ⟨alsoWritable, alsoCounted, alsoShallow⟩ := clause.fits
      simp only [Clause.condition, Clause.comparisons, Clause.nesting, List.length_append]
      refine ⟨⟨writable, alsoWritable⟩, ?_, ?_⟩
      · rw [terms_combine, counted, alsoCounted]
      · rw [nesting_combine]
        exact max_le_max shallow alsoShallow

theorem Operand.fits (operand : Operand) :
    operand.condition.Fits operand.comparisons.length operand.condition.operandNesting
      operand.nesting := by
  cases operand with
  | enclosed clause =>
      obtain ⟨writable, counted, shallow⟩ := clause.fits
      simp only [Operand.condition, Operand.comparisons, Operand.nesting]
      refine ⟨writable, counted, ?_⟩
      unfold operandNesting
      split <;> omega
  | comparison leaf =>
      simp only [Operand.condition, Operand.comparisons, Operand.nesting]
      exact ⟨leaf.isWritable, rfl, Nat.le_refl 0⟩

end

theorem expressible_of_read {tokens rest : List Token} {condition : Condition}
    (found : read tokens = .ok (condition, rest)) : condition.Expressible := by
  obtain ⟨count, shorter, taken⟩ := read_eq_ok_iff.mp found
  obtain ⟨clause, -, rfl, shallow, counted, few⟩ :=
    derives_of_read.1 0 0 tokens (Nat.zero_le _) _ _ _ taken
  obtain ⟨writable, terms, needed⟩ := clause.fits
  exact ⟨writable, by omega, by omega⟩

end Condition

namespace Reader

variable {First Second : Type}

theorem Yields.bind {reader : Reader First} {next : First → Reader Second}
    {property : First → Prop} {goal : Second → Prop} (first : Yields reader property)
    (second : ∀ result, property result → Yields (next result) goal) :
    Yields (reader >>= next) goal := by
  intro tokens result rest read
  obtain ⟨middle, between, taken, read⟩ := bind_eq_ok read
  exact second middle (first _ _ _ taken) between result rest read

theorem Yields.mono {reader : Reader First} {property weaker : First → Prop}
    (strong : Yields reader property) (implies : ∀ result, property result → weaker result) :
    Yields reader weaker :=
  fun _ result _ read => implies result (strong _ _ _ read)

theorem yields_any (reader : Reader First) : Yields reader fun _ => True :=
  fun _ _ _ _ => trivial

theorem yields_pure {property : First → Prop} {result : First} (holds : property result) :
    Yields (pure result) property := by
  intro tokens other rest read
  cases read
  exact holds

theorem yields_fail {property : First → Prop} (error : SyntaxError) :
    Yields (fail error) property := by
  intro tokens other rest read
  cases read

theorem yields_ofExcept {outcome : Except Error First} {property : First → Prop}
    (holds : ∀ result, outcome = .ok result → property result) :
    Yields (liftM outcome) property := by
  intro tokens result rest read
  cases outcome with
  | error error => cases read
  | ok found =>
      cases read
      exact holds _ rfl

theorem yields_name (part : Part) : Yields (name part) IsName :=
  (yields_any _).bind fun _ _ => yields_ofExcept fun _ read => isName_of_nameOfToken read

theorem yields_reference : Yields reference Attribute.Expressible :=
  (yields_any _).bind fun _ _ => yields_ofExcept fun _ read =>
    Attribute.expressible_of_ofToken read

theorem columnStep_yields : Step.Yields columnStep fun column => isPlain column.toList := by
  intro tokens column rest read
  obtain ⟨token, reference, -, found, rfl⟩ := columnStep_eq_ok read
  exact (Attribute.expressible_of_ofToken found).column

theorem valueStep_yields : Step.Yields valueStep Literal.Expressible := by
  intro tokens literal rest read
  obtain ⟨token, -, found⟩ := Step.single_eq_ok read
  exact Literal.expressible_of_ofValue found

theorem assignmentStep_yields :
    Step.Yields assignmentStep fun assignment =>
      isPlain assignment.1.toList ∧ assignment.2.Expressible := by
  intro tokens assignment rest read
  obtain ⟨sign, after, shorter, stillShorter, target, -, given⟩ := assignmentStep_eq_ok read
  exact ⟨columnStep_yields _ _ _ target, valueStep_yields _ _ _ given⟩

theorem yields_separated {item : Step First} {property : First → Prop}
    (each : Step.Yields item property) :
    Yields (ofStep (Step.separated item)) fun results =>
      results ≠ [] ∧ ∀ result ∈ results, property result := by
  intro tokens results rest read
  obtain ⟨shorter, found⟩ := ofStep_eq_ok read
  exact (Step.lists_of_separated tokens results _ found).forall_mem each

theorem yields_condition : Yields condition Condition.Expressible :=
  fun _ _ _ read => Condition.expressible_of_read read

/-- With the literals of what it yields, the reader reaches the goal. -/
theorem Yields.reads {reader : Reader First} {property : First → Prop}
    (literals : First → List Literal) (yields : Yields reader property) :
    Yields reader fun result => ∃ found, Goal.reads literals property found result :=
  yields.mono fun result holds => ⟨literals result, rfl, holds⟩

theorem closed_yields :
    Closed fun _ reader goal => Yields reader fun result => ∃ literals, goal literals result where
  pure reached := yields_pure ⟨[], reached⟩
  fail cause := yields_fail cause
  bind first second := first.bind fun result ⟨literals, reached⟩ =>
    (second literals result).mono fun _ ⟨others, later⟩ => ⟨literals ++ others, later reached⟩
  takeKeyword _ := (yields_any _).reads _
  takeSymbol _ _ := (yields_any _).reads _
  keyword _ := (yields_any _).reads _
  symbol _ _ := (yields_any _).reads _
  name part := (yields_name part).reads _
  reference := yields_reference.reads _
  alteration := (yields_any _).reads _
  columns := (yields_separated columnStep_yields).reads _
  values := (yields_separated valueStep_yields).reads _
  assignments := (yields_separated assignmentStep_yields).reads _
  condition := yields_condition.reads _

theorem yields_body (verb : Verb) : Yields (body verb) Statement.Expressible :=
  (closed_yields.body verb).mono fun _ ⟨_, _, expressible⟩ => expressible

end Reader

/-- Every text that is read gives a statement that can be expressed. -/
theorem Statement.expressible_of_parse {text : String} {statement : Statement}
    (read : parse text = .ok statement) : statement.Expressible := by
  obtain ⟨token, others, verb, -, -, body⟩ := parse_eq_ok read
  exact Reader.yields_body verb _ _ _ body

end TextTables
