import TextTables.Proofs.Condition.Comparing
import TextTables.Proofs.Statement.Commands
import TextTables.Proofs.Statement.Harmless

/-!
# The literals of a text

A text is read as a statement, or else its syntax is wrong. The literals of the statement are tokens
of the text, in the order in which they stand there. Each of them has the kind that its spelling has
and is stored as it is spelled, except that a string loses its quotes.
-/

namespace TextTables

open Text

/-- A value is one of the three words for values, a numeral or a string literal. -/
theorem isValue_iff {spelling : String} :
    isValue spelling ↔
      (∃ word ∈ [Keyword.null, .truth, .falsehood], word.isSpelledBy spelling) ∨
        (Numeral.ofText? spelling.toList).isSome ∨ isStringLiteral spelling := by
  unfold isValue Kind.of
  by_cases truth : Keyword.truth.isSpelledBy spelling
  · simp [truth]
  by_cases falsehood : Keyword.falsehood.isSpelledBy spelling
  · simp [falsehood]
  by_cases null : Keyword.null.isSpelledBy spelling
  · simp [truth, falsehood, null]
  cases Numeral.ofText? spelling.toList with
  | none => simp [truth, falsehood, null]
  | some numeral =>
      cases fraction : numeral.fraction <;> simp [truth, falsehood, null, fraction]

namespace Literal

/-- The token that the literal is written with. -/
def token (literal : Literal) : Token :=
  ⟨literal.spelling⟩

/-- The literal has the kind of its spelling, and its text is this spelling without the quotes. -/
structure IsAsSpelled (literal : Literal) : Prop where
  kind : literal.kind = Kind.of literal.spelling
  string_iff : literal.kind = .string ↔ isQuoted literal.spelling
  stripped : isQuoted literal.spelling →
    literal.spelling.toList = quote :: literal.text.toList ++ [quote]
  kept : ¬ isQuoted literal.spelling → literal.text = literal.spelling

/-- The reader of literals does not refuse what the check of values lets through. -/
theorem ofToken_of_isValue {spelling : String} (allowed : isValue spelling) :
    ofToken spelling = .ok ⟨spelling, Kind.of spelling⟩ := by
  have read : ofValue ⟨spelling⟩ = .ok ⟨spelling, Kind.of spelling⟩ :=
    ofValue_eq_ok_iff.mpr ⟨allowed, rfl⟩
  rwa [ofValue, if_pos allowed] at read

theorem Expressible.isAsSpelled {literal : Literal} (expressible : literal.Expressible) :
    literal.IsAsSpelled := by
  have string_iff : literal.kind = .string ↔ isQuoted literal.spelling := by
    refine ⟨wellQuoted_of_ofToken expressible.read, fun quoted => ?_⟩
    obtain ⟨inside, whole⟩ := isQuoted_iff.mp quoted
    exact kind_of_toList expressible.read whole
  exact ⟨(kind_eq_of_ofToken expressible.read).1, string_iff,
    fun quoted => toList_of_string expressible.read (string_iff.mpr quoted),
    fun bare => text_of_ne_string expressible.read (mt string_iff.mp bare)⟩

end Literal

/-! ## What readers copy -/

theorem InnerUpTo.sublist {tokens rest : List Token} (inner : InnerUpTo tokens rest) :
    rest.Sublist tokens := by
  obtain ⟨taken, rfl, -⟩ := inner
  exact List.sublist_append_right taken rest

/-- In front of the rest the tokens hold the literal of what is read. -/
def Step.Copies {α : Type} (step : Step α) (literal : α → Literal) : Prop :=
  ∀ tokens result rest, step tokens = .ok (result, rest) →
    ((literal result).token :: rest.val).Sublist tokens

/-- In front of the rest the tokens hold all literals with which the goal is reached, in their
order. -/
def Reader.Copies {α : Type} (reader : Reader α) (goal : Goal α) : Prop :=
  ∀ tokens result rest, reader tokens = .ok (result, rest) →
    ∃ literals, goal literals result ∧ (literals.map Literal.token ++ rest).Sublist tokens

theorem Step.Lists.sublist {α : Type} {item : Step α} {literal : α → Literal}
    {tokens rest : List Token} {results : List α} (listed : Lists item tokens results rest)
    (each : Copies item literal) :
    ((results.map literal).map Literal.token ++ rest).Sublist tokens := by
  induction listed with
  | last found => exact each _ _ _ found
  | more found spelled further inductionHypothesis =>
      exact ((inductionHypothesis.cons _).cons_cons _).trans (each _ _ _ found)

namespace Condition

mutual

/-- The literals of a condition are the values of the comparisons in its tree. -/
theorem Clause.literals_sublist (clause : Clause) :
    (clause.condition.literals.map Literal.token).Sublist clause.tokens := by
  cases clause with
  | alone operand =>
      simp only [Clause.condition, Clause.tokens]
      exact operand.literals_sublist
  | joined operand link clause =>
      simp only [Clause.condition, Clause.tokens, literals, List.map_append]
      exact operand.literals_sublist.append (clause.literals_sublist.cons link.token)

theorem Operand.literals_sublist (operand : Operand) :
    (operand.condition.literals.map Literal.token).Sublist operand.tokens := by
  cases operand with
  | enclosed clause =>
      simp only [Operand.condition, Operand.tokens, List.cons_append]
      exact (clause.literals_sublist.trans (List.sublist_append_left _ _)).cons _
  | comparison leaf =>
      simp only [Operand.condition, Operand.tokens]
      exact ((List.Sublist.refl [(⟨leaf.value⟩ : Token)]).cons _).cons _

end

end Condition

namespace Reader

variable {First Second : Type}

/-- What yields the literals that it copies reaches the goal with them. -/
theorem Yields.copies {reader : Reader First} {property : First → Prop}
    {literals : First → List Literal} (yields : Yields reader property)
    (copied : ∀ tokens result rest, reader tokens = .ok (result, rest) →
      ((literals result).map Literal.token ++ rest).Sublist tokens) :
    Copies reader (.reads literals property) :=
  fun _ result _ read => ⟨literals result, ⟨rfl, yields _ _ _ read⟩, copied _ _ _ read⟩

/-- What is taken without literals is left out. -/
theorem Yields.copies_bare {reader : Reader First} {property : First → Prop}
    (yields : Yields reader property) (inner : TakesInner reader) :
    Copies reader (.bare property) :=
  yields.copies fun _ _ _ read => (inner _ _ _ read).sublist

theorem copies_separated {item : Step First} {literal : First → Literal} {property : First → Prop}
    (yields : Step.Yields item property) (each : Step.Copies item literal) :
    Copies (ofStep (Step.separated item)) (.reads (List.map literal) fun results =>
      results ≠ [] ∧ ∀ result ∈ results, property result) := by
  refine (yields_separated yields).copies fun tokens results rest read => ?_
  obtain ⟨shorter, found⟩ := ofStep_eq_ok read
  exact (Step.lists_of_separated tokens results _ found).sublist each

theorem valueStep_copies : Step.Copies valueStep id := by
  intro tokens literal rest read
  obtain ⟨token, taken, found⟩ := Step.single_eq_ok read
  obtain ⟨-, rfl⟩ := Literal.ofValue_eq_ok_iff.mp found
  change (token :: rest.val).Sublist tokens
  rw [← taken]

theorem assignmentStep_copies : Step.Copies assignmentStep Prod.snd := by
  intro tokens assignment rest read
  obtain ⟨sign, after, shorter, stillShorter, target, -, given⟩ := assignmentStep_eq_ok read
  have column := (takesInner_columnStep _ _ _ target).sublist
  exact ((valueStep_copies _ _ _ given).cons sign).trans column

theorem copies_condition :
    Copies condition (.reads Condition.literals Condition.Expressible) := by
  refine yields_condition.copies fun tokens filter rest read => ?_
  obtain ⟨count, shorter, taken⟩ := Condition.read_eq_ok_iff.mp read
  obtain ⟨clause, spelled, rfl, -⟩ :=
    Condition.derives_of_read.1 0 0 tokens (Nat.zero_le _) _ _ _ taken
  rw [← spelled]
  exact clause.literals_sublist.append (.refl _)

/-- The literals of two readers stand in the tokens one behind the other. -/
theorem Copies.bind {reader : Reader First} {next : First → Reader Second} {part : Goal First}
    {goal : Goal Second} (first : Copies reader part)
    (second : ∀ literals result, Copies (next result) fun others last =>
      part literals result → goal (literals ++ others) last) :
    Copies (reader >>= next) goal := by
  intro tokens last rest read
  obtain ⟨result, between, found, read⟩ := bind_eq_ok read
  obtain ⟨literals, reached, here⟩ := first _ _ _ found
  obtain ⟨others, later, behind⟩ := second literals result _ _ _ read
  refine ⟨literals ++ others, later reached, ?_⟩
  rw [List.map_append, List.append_assoc]
  exact (behind.append_left _).trans here

theorem closed_copies : Closed fun _ reader goal => Copies reader goal where
  pure reached := by
    rintro tokens result rest ⟨⟩
    exact ⟨[], reached, .refl _⟩
  fail cause := nofun
  bind first second := first.bind second
  takeKeyword word := (yields_any _).copies_bare (closed_takesInner.takeKeyword word)
  takeSymbol spelling listed :=
    (yields_any _).copies_bare (closed_takesInner.takeSymbol spelling listed)
  keyword word := (yields_any _).copies_bare (closed_takesInner.keyword word)
  symbol spelling listed := (yields_any _).copies_bare (closed_takesInner.symbol spelling listed)
  name part := (yields_name part).copies_bare (closed_takesInner.name part)
  reference := yields_reference.copies_bare closed_takesInner.reference
  alteration := (yields_any _).copies_bare closed_takesInner.alteration
  columns := (yields_separated columnStep_yields).copies_bare closed_takesInner.columns
  values := List.map_id_fun ▸ copies_separated valueStep_yields valueStep_copies
  assignments := copies_separated assignmentStep_yields assignmentStep_copies
  condition := copies_condition

end Reader

/-- Of a text that is read, the verb is the first token and the semicolon the last one. -/
theorem Statement.sublist_of_parse {text : String} {statement : Statement}
    (read : parse text = .ok statement) :
    (statement.literals.map Literal.token).Sublist (Token.scan text) := by
  obtain ⟨token, others, verb, scanned, -, body⟩ := parse_eq_ok read
  obtain ⟨_, ⟨rfl, -⟩, inBody⟩ := Reader.closed_copies.body verb _ _ _ body
  rw [scanned]
  exact ((List.sublist_append_left _ _).trans inBody).cons token

/-- Every text is read or has wrong syntax. Its literals are read as they are spelled, and no token
that is let through as a value is refused for its quotes. -/
theorem Statement.parse_literals (text : String) :
    (HasSyntaxError text ∨
      ∃ statement, parse text = .ok statement ∧
        (statement.literals.map Literal.token).Sublist (Token.scan text) ∧
        ∀ literal ∈ statement.literals, literal.IsAsSpelled) ∧
    ∀ spelling,
      (isValue spelling ↔
        (∃ word ∈ [Keyword.null, .truth, .falsehood], word.isSpelledBy spelling) ∨
          (Numeral.ofText? spelling.toList).isSome ∨ isStringLiteral spelling) ∧
      (isValue spelling → Literal.ofToken spelling = .ok ⟨spelling, Kind.of spelling⟩) := by
  refine ⟨?_, fun spelling => ⟨isValue_iff, Literal.ofToken_of_isValue⟩⟩
  cases outcome : parse text with
  | error error =>
      obtain ⟨cause, rfl⟩ := parse_failsBySyntax text error outcome
      exact .inl ⟨cause, outcome⟩
  | ok statement =>
      have expressible := expressible_of_parse outcome
      exact .inr ⟨statement, rfl, sublist_of_parse outcome, fun literal member =>
        (expressible.of_mem_literals literal member).isAsSpelled⟩

/-- Blanks inside the quotes, the sign and the case of the letters are kept. -/
theorem Statement.parse_literals_update :
    let text := "UPDATE t SET a = 'x  y', b = +07 WHERE c == nUll;"
    (∃ statement, parse text = .ok statement ∧
        statement.literals = [⟨"'x  y'", .string⟩, ⟨"+07", .integer⟩, ⟨"nUll", .null⟩] ∧
        statement.literals.map Literal.text = ["x  y", "+07", "nUll"] ∧
        ∀ literal ∈ statement.literals, literal.IsAsSpelled) ∧
      isValue "'x  y'" ∧ Literal.ofToken "'x  y'" = .ok ⟨"'x  y'", Kind.of "'x  y'"⟩ := by
  intro text
  have allowed : isValue "'x  y'" := by decide +kernel
  refine ⟨?_, allowed, ((parse_literals text).2 _).2 allowed⟩
  have known : parse text = .ok (.update "t" [("a", ⟨"'x  y'", .string⟩), ("b", ⟨"+07", .integer⟩)]
      (.comparison "c" .equal ⟨"nUll", .null⟩)) := by
    decide +kernel
  obtain ⟨cause, failed⟩ | ⟨statement, read, -, spelled⟩ := (parse_literals text).1
  · cases known.symm.trans failed
  · cases known.symm.trans read
    exact ⟨_, known, rfl, by decide +kernel, spelled⟩

end TextTables
