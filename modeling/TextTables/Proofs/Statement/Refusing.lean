import TextTables.Proofs.Statement.Productions

/-!
# Why texts are not read

A text that is not read has wrong syntax, and nothing else can be wrong with it. Values are checked
before their quotes are taken off, so that these are never missed.
-/

namespace TextTables

/-- Nothing goes wrong but the syntax. -/
def FailsBySyntax {α : Type} (outcome : Except Error α) : Prop :=
  ∀ error, outcome = .error error → ∃ cause, error = .badSyntax cause

namespace FailsBySyntax

variable {α β : Type}

theorem ok (result : α) : FailsBySyntax (.ok result : Except Error α) :=
  fun _ failed => nomatch failed

theorem badSyntax (cause : SyntaxError) :
    FailsBySyntax (.error (.badSyntax cause) : Except Error α) := by
  rintro error ⟨⟩
  exact ⟨cause, rfl⟩

/-- An error is passed on. -/
theorem passed {outcome : Except Error α} {error : Error} (first : FailsBySyntax outcome)
    (failed : outcome = .error error) : FailsBySyntax (.error error : Except Error β) := by
  obtain ⟨cause, rfl⟩ := first error failed
  exact .badSyntax cause

theorem map {outcome : Except Error α} (first : FailsBySyntax outcome) (function : α → β) :
    FailsBySyntax (outcome.map function) := by
  cases failed : outcome with
  | error error => exact first.passed failed
  | ok result => exact .ok _

end FailsBySyntax

theorem nameOfToken_failsBySyntax (part : Part) (token : Token) :
    FailsBySyntax (nameOfToken part token) := by
  unfold nameOfToken
  split
  · exact .ok _
  · exact .badSyntax _

theorem Attribute.ofToken_failsBySyntax (token : Token) : FailsBySyntax (ofToken token) := by
  unfold ofToken
  split
  · split
    · exact .ok _
    · exact .badSyntax _
  · split
    · exact .ok _
    · exact .badSyntax _
  · exact .badSyntax _

/-- A value that passes the check has its quotes. -/
theorem Literal.ofValue_failsBySyntax (token : Token) : FailsBySyntax (ofValue token) := by
  by_cases allowed : isValue token.spelling
  · rw [ofValue_eq_ok_iff.mpr ⟨allowed, rfl⟩]
    exact .ok _
  · rw [ofValue, if_neg allowed]
    exact .badSyntax _

/-! ## Steps -/

def Step.FailsBySyntax {α : Type} (step : Step α) : Prop :=
  ∀ tokens, TextTables.FailsBySyntax (step tokens)

namespace Step

variable {α : Type}

theorem failsBySyntax_single {part : Part} {item : Token → Except Error α}
    (each : ∀ token, TextTables.FailsBySyntax (item token)) : FailsBySyntax (single part item) := by
  intro tokens
  cases tokens with
  | nil => exact .badSyntax _
  | cons token rest =>
      simp only [single]
      split
      · rename_i failed
        exact (each token).passed failed
      · exact .ok _

theorem failsBySyntax_separated {item : Step α} (each : FailsBySyntax item) :
    FailsBySyntax (separated item) := by
  intro tokens
  induction tokens using separated.induct item with
  | case1 tokens error failed =>
      rw [separated, failed]
      exact (each tokens).passed failed
  | case2 tokens first shorter found =>
      rw [separated, found]
      exact .ok _
  | case3 tokens first comma after shorter found isComma error failed inductionHypothesis =>
      rw [separated, found]
      simp only [isComma, if_true, failed]
      exact inductionHypothesis.passed failed
  | case4 tokens first comma after shorter found isComma others left stillShorter further =>
      rw [separated, found]
      simp only [isComma, if_true, further]
      exact .ok _
  | case5 tokens first comma after shorter found noComma =>
      rw [separated, found]
      simp only [noComma, if_false]
      exact .ok _

end Step

namespace Condition

theorem readComparison_failsBySyntax : Step.FailsBySyntax readComparison := by
  intro tokens
  cases tokens with
  | nil => exact .badSyntax _
  | cons reference others =>
      have names := Attribute.ofToken_failsBySyntax reference
      cases named : Attribute.ofToken reference with
      | error error =>
          simp only [readComparison, named]
          exact names.passed named
      | ok column =>
          cases others with
          | nil =>
              simp only [readComparison, named]
              exact .badSyntax _
          | cons sign others =>
              simp only [readComparison, named]
              cases Comparator.ofText? sign.spelling with
              | none => exact .badSyntax _
              | some comparator =>
                  cases others with
                  | nil => exact .badSyntax _
                  | cons value rest =>
                      have values := Literal.ofValue_failsBySyntax value
                      simp only
                      split
                      · rename_i failed
                        exact values.passed failed
                      · exact .ok _

/-- The two readers call each other, and so the induction is on both. -/
theorem readClause_failsBySyntax :
    (∀ depth terms tokens, FailsBySyntax (readClause depth terms tokens)) ∧
      ∀ depth terms tokens, FailsBySyntax (readOperand depth terms tokens) := by
  refine readClause.mutual_induct
    (fun depth terms tokens => FailsBySyntax (readClause depth terms tokens))
    (fun depth terms tokens => FailsBySyntax (readOperand depth terms tokens))
    ?_ ?_ ?_ ?_ ?_ ?_ ?_ ?_ ?_ ?_ ?_ ?_ ?_
  -- A clause: its first operand, alone or joined to another clause.
  · intro depth terms tokens error failed operand
    rw [readClause, failed]
    exact operand.passed failed
  · intro depth terms tokens left counted shorter found operand
    rw [readClause, found]
    exact .ok _
  · intro depth terms tokens left counted word after shorter found alone operand
    rw [readClause, found]
    simp only [alone]
    exact .ok _
  · intro depth terms tokens left counted word after shorter found connective joins error failed
      operand clause
    rw [readClause, found]
    simp only [joins, failed]
    exact clause.passed failed
  · intro depth terms tokens left counted word after shorter found connective joins right further
      others stillShorter continued operand clause
    rw [readClause, found]
    simp only [joins, continued]
    exact .ok _
  -- An operand: a clause in parentheses, or a comparison.
  · intro depth terms inner deep
    rw [readOperand, if_pos deep]
    exact .badSyntax _
  · intro depth terms inner shallow error failed clause
    rw [readOperand, if_neg shallow, failed]
    exact clause.passed failed
  · intro depth terms inner shallow left counted shorter found clause
    rw [readOperand, if_neg shallow, found]
    exact .badSyntax _
  · intro depth terms inner shallow left counted word after shorter found closes clause
    rw [readOperand, if_neg shallow, found]
    simp only [closes, if_true]
    exact .ok _
  · intro depth terms inner shallow left counted word after shorter found opened clause
    rw [readOperand, if_neg shallow, found]
    simp only [opened, if_false]
    exact .badSyntax _
  · intro depth terms tokens other many
    rw [readOperand.eq_2 _ _ _ other, if_pos many]
    exact .badSyntax _
  · intro depth terms tokens other few error failed
    rw [readOperand.eq_2 _ _ _ other, if_neg few, failed]
    exact (readComparison_failsBySyntax tokens).passed failed
  · intro depth terms tokens other few leaf left found
    rw [readOperand.eq_2 _ _ _ other, if_neg few, found]
    exact .ok _

end Condition

/-! ## Readers -/

def Reader.FailsBySyntax {α : Type} (reader : Reader α) : Prop :=
  ∀ tokens, TextTables.FailsBySyntax (reader tokens)

namespace Reader

variable {First Second : Type}

theorem FailsBySyntax.bind {reader : Reader First} {next : First → Reader Second}
    (first : FailsBySyntax reader) (second : ∀ result, FailsBySyntax (next result)) :
    FailsBySyntax (reader >>= next) := by
  intro tokens
  cases outcome : reader tokens with
  | error error =>
      change TextTables.FailsBySyntax (do let found ← reader tokens; next found.1 found.2)
      rw [outcome]
      exact (first tokens).passed outcome
  | ok found =>
      rw [bind_ok outcome]
      exact second found.1 found.2

theorem failsBySyntax_pure (result : First) : FailsBySyntax (pure result) :=
  fun _ => .ok _

theorem failsBySyntax_fail (cause : SyntaxError) : FailsBySyntax (fail cause : Reader First) :=
  fun _ => .badSyntax cause

theorem failsBySyntax_ofExcept {outcome : Except Error First}
    (fails : TextTables.FailsBySyntax outcome) : FailsBySyntax (liftM outcome) := by
  intro tokens
  cases failed : outcome with
  | error error => exact fails.passed failed
  | ok result => exact .ok _

theorem failsBySyntax_ofStep {step : Step First} (fails : Step.FailsBySyntax step) :
    FailsBySyntax (ofStep step) := by
  intro tokens
  unfold ofStep
  split
  · rename_i failed
    exact (fails tokens).passed failed
  · exact .ok _

theorem failsBySyntax_next (part : Part) : FailsBySyntax (next part) := by
  intro tokens
  cases tokens with
  | nil => exact .badSyntax _
  | cons token rest => exact .ok _

theorem failsBySyntax_takeIf (test : Token → Bool) : FailsBySyntax (takeIf test) := by
  intro tokens
  cases tokens with
  | nil => exact .ok _
  | cons token rest =>
      rw [takeIf_cons]
      split
      · exact .ok _
      · exact .ok _

theorem failsBySyntax_keyword (word : Keyword) : FailsBySyntax (keyword word) := by
  refine (failsBySyntax_next _).bind fun token => ?_
  split
  · exact failsBySyntax_pure _
  · exact failsBySyntax_fail _

theorem failsBySyntax_symbol (spelling : String) : FailsBySyntax (symbol spelling) := by
  refine (failsBySyntax_next _).bind fun token => ?_
  split
  · exact failsBySyntax_pure _
  · exact failsBySyntax_fail _

theorem failsBySyntax_name (part : Part) : FailsBySyntax (name part) :=
  (failsBySyntax_next _).bind fun token =>
    failsBySyntax_ofExcept (nameOfToken_failsBySyntax part token)

theorem failsBySyntax_reference : FailsBySyntax reference :=
  (failsBySyntax_next _).bind fun token =>
    failsBySyntax_ofExcept (Attribute.ofToken_failsBySyntax token)

theorem columnStep_failsBySyntax : Step.FailsBySyntax columnStep :=
  Step.failsBySyntax_single fun token => (Attribute.ofToken_failsBySyntax token).map _

theorem valueStep_failsBySyntax : Step.FailsBySyntax valueStep :=
  Step.failsBySyntax_single Literal.ofValue_failsBySyntax

theorem assignmentStep_failsBySyntax : Step.FailsBySyntax assignmentStep := by
  intro tokens
  unfold assignmentStep
  split
  · rename_i failed
    exact (columnStep_failsBySyntax tokens).passed failed
  · exact .badSyntax _
  · split
    · split
      · rename_i failed
        exact (valueStep_failsBySyntax _).passed failed
      · exact .ok _
    · exact .badSyntax _

theorem failsBySyntax_condition : FailsBySyntax condition := by
  intro tokens
  change TextTables.FailsBySyntax (Condition.read tokens)
  unfold Condition.read
  split
  · rename_i failed
    exact (Condition.readClause_failsBySyntax.1 0 0 tokens).passed failed
  · exact .ok _

theorem failsBySyntax_alteration : FailsBySyntax alteration := by
  refine (failsBySyntax_next _).bind fun token => ?_
  split
  · exact failsBySyntax_pure _
  · exact failsBySyntax_pure _
  · exact failsBySyntax_fail _

/-- Whatever the parts read, nothing else can be wrong with them. -/
theorem closed_failsBySyntax : Closed fun _ reader _ => FailsBySyntax reader where
  pure _ := failsBySyntax_pure _
  fail cause := failsBySyntax_fail cause
  bind first second := first.bind fun result => second [] result
  takeKeyword _ := failsBySyntax_takeIf _
  takeSymbol _ _ := failsBySyntax_takeIf _
  keyword word := failsBySyntax_keyword word
  symbol spelling _ := failsBySyntax_symbol spelling
  name part := failsBySyntax_name part
  reference := failsBySyntax_reference
  alteration := failsBySyntax_alteration
  columns := failsBySyntax_ofStep (Step.failsBySyntax_separated columnStep_failsBySyntax)
  values := failsBySyntax_ofStep (Step.failsBySyntax_separated valueStep_failsBySyntax)
  assignments := failsBySyntax_ofStep (Step.failsBySyntax_separated assignmentStep_failsBySyntax)
  condition := failsBySyntax_condition

theorem failsBySyntax_terminator : FailsBySyntax terminator := by
  refine FailsBySyntax.bind (fun tokens => .ok (tokens, tokens)) fun tokens => ?_
  split
  · exact failsBySyntax_fail _
  · split
    · split
      · exact fun _ => .ok _
      · exact (failsBySyntax_fail _).bind fun _ _ => .ok _
    · split
      · exact failsBySyntax_fail _
      · exact (failsBySyntax_fail _).bind fun _ => failsBySyntax_fail _

theorem failsBySyntax_statement : FailsBySyntax statement := by
  refine (failsBySyntax_next _).bind fun token => ?_
  split
  · exact failsBySyntax_fail _
  · exact (closed_failsBySyntax.body _).bind fun _ =>
      failsBySyntax_terminator.bind fun _ => failsBySyntax_pure _

end Reader

/-- A text is read, or its syntax is wrong. -/
theorem Statement.parse_failsBySyntax (text : String) : FailsBySyntax (parse text) :=
  (Reader.failsBySyntax_statement _).map _

end TextTables
