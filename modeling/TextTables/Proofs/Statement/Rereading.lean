import TextTables.Proofs.Statement.Printing

/-!
# Reading what was printed

From the tokens of an item every reader takes exactly that item and leaves what follows. Behind a
list there must be no comma, and behind a condition no connective, and nothing of a statement is
followed by either.
-/

namespace TextTables

open Text

namespace Step

variable {Item : Type} {item : Step Item}

/-- From the tokens the step reads the result and leaves the rest. -/
def Reads (item : Step Item) (tokens : List Token) (result : Item) (rest : List Token) : Prop :=
  ∃ shorter, item tokens = .ok (result, ⟨rest, shorter⟩)

theorem reads_single {part : Part} {read : Token → Except Error Item} {token : Token}
    {result : Item} (found : read token = .ok result) (rest : List Token) :
    Reads (single part read) (token :: rest) result rest :=
  ⟨by simp, by simp [single, found]⟩

theorem reads_separated_last {tokens rest : List Token} {result : Item}
    (found : Reads item tokens result rest)
    (ends : ∀ token ∈ rest.head?, token.spelling ≠ ",") :
    Reads (separated item) tokens [result] rest := by
  obtain ⟨shorter, found⟩ := found
  refine ⟨shorter, ?_⟩
  rw [separated, found]
  cases rest with
  | nil => rfl
  | cons token others => exact if_neg (ends token rfl)

theorem reads_separated_cons {tokens after rest : List Token} {result : Item}
    {others : List Item} (found : Reads item tokens result (⟨","⟩ :: after))
    (further : Reads (separated item) after others rest) :
    Reads (separated item) tokens (result :: others) rest := by
  obtain ⟨shorter, found⟩ := found
  obtain ⟨stillShorter, further⟩ := further
  refine ⟨Rest.lt_of_cons shorter stillShorter, ?_⟩
  rw [separated, found]
  simp only [if_true, further]

/-- A list is read item by item, up to where no comma follows. -/
theorem reads_separated {spellings : Item → List String} {items : List Item} (nonempty : items ≠ [])
    (each : ∀ result ∈ items, ∀ rest,
      Reads item ((spellings result).map Token.mk ++ rest) result rest)
    {rest : List Token} (ends : ∀ token ∈ rest.head?, token.spelling ≠ ",") :
    Reads (separated item) ((listed spellings items).map Token.mk ++ rest) items rest := by
  induction items with
  | nil => exact absurd rfl nonempty
  | cons first others inductionHypothesis =>
      have here := each first List.mem_cons_self
      cases others with
      | nil => exact reads_separated_last (by simpa [listed] using here rest) ends
      | cons second others =>
          have later := inductionHypothesis (List.cons_ne_nil _ _)
            fun result member => each result (.tail _ member)
          apply reads_separated_cons _ later
          simpa [listed, List.intercalate_cons_cons] using here _

end Step

theorem Literal.Expressible.ofValue {literal : Literal} (expressible : literal.Expressible) :
    Literal.ofValue ⟨literal.spelling⟩ = .ok literal := by
  rw [Literal.ofValue, if_pos expressible.allowed, expressible.read]

/-- No part of a written reference holds a point, and so the point cuts it into its parts. -/
theorem Attribute.IsWritten.splitOn_spelling {reference : Attribute}
    (written : reference.IsWritten) :
    reference.spelling.toList.splitOn '.' =
      (reference.table.toList ++ [reference.column]).map String.toList := by
  have pointFree : ∀ {text : List Char}, isPlain text → '.' ∉ text := fun plain member =>
    absurd ((isPlain_iff.mp plain).2 '.' member) (by decide)
  obtain ⟨table, column⟩ := reference
  have alone := List.splitOn_eq_singleton (pointFree written.column)
  cases table with
  | none => simpa [spelling] using alone
  | some table =>
      have spelled : (table ++ "." ++ column).toList = table.toList ++ '.' :: column.toList := by
        simp
      have plain := pointFree (written.table table rfl)
      have split := List.splitOn_append_cons_self_of_not_mem plain column.toList
      rw [alone, ← spelled] at split
      simpa [spelling] using split

/-- A written reference is read part by part, and only the name of its table goes to lower case. -/
theorem Attribute.ofToken_spelling {reference : Attribute} (written : reference.IsWritten) :
    ofToken ⟨reference.spelling⟩ = .ok ⟨reference.table.map lowercase, reference.column⟩ := by
  have split := written.splitOn_spelling
  obtain ⟨table, column⟩ := reference
  cases table with
  | none =>
      rw [ofToken, split]
      simp [spelling, written.column]
  | some table =>
      rw [ofToken, split]
      simp [written.table table rfl, written.column]

theorem Attribute.Expressible.ofToken {reference : Attribute}
    (expressible : reference.Expressible) :
    Attribute.ofToken ⟨reference.spelling⟩ = .ok reference := by
  rw [Attribute.ofToken_spelling expressible.isWritten]
  obtain ⟨_ | table, column⟩ := reference
  · rfl
  · rw [Option.map_some, (expressible.table table rfl).lower]

namespace Condition

/-- Inside `depth` parentheses and behind `terms` comparisons, from the tokens the clause is read,
with the comparisons so far, and the rest is left. -/
def ReadsClause (depth terms : Nat) (tokens : List Token) (condition : Condition) (count : Nat)
    (rest : List Token) : Prop :=
  ∃ shorter, readClause depth terms tokens = .ok (condition, count, ⟨rest, shorter⟩)

def ReadsOperand (depth terms : Nat) (tokens : List Token) (condition : Condition) (count : Nat)
    (rest : List Token) : Prop :=
  ∃ shorter, readOperand depth terms tokens = .ok (condition, count, ⟨rest, shorter⟩)

variable {depth terms count total : Nat} {tokens after rest : List Token}
  {condition left right : Condition}

theorem readsClause_of_readsOperand (operand : ReadsOperand depth terms tokens condition count rest)
    (ends : ∀ token ∈ rest.head?, Connective.ofText? token.spelling = none) :
    ReadsClause depth terms tokens condition count rest := by
  obtain ⟨shorter, operand⟩ := operand
  refine ⟨shorter, ?_⟩
  rw [readClause, operand]
  cases rest with
  | nil => rfl
  | cons token others => simp only [ends token rfl]

theorem readsClause_combine {connective : Connective} {word : Token}
    (joins : Connective.ofText? word.spelling = some connective)
    (operand : ReadsOperand depth terms tokens left count (word :: after))
    (clause : ReadsClause depth count after right total rest) :
    ReadsClause depth terms tokens (combine connective left right) total rest := by
  obtain ⟨shorter, operand⟩ := operand
  obtain ⟨stillShorter, clause⟩ := clause
  refine ⟨Rest.lt_of_cons shorter stillShorter, ?_⟩
  rw [readClause, operand]
  simp only [joins, clause]

theorem readsOperand_enclosed (shallow : depth < maxConditionDepth)
    (clause : ReadsClause (depth + 1) terms tokens condition count (⟨")"⟩ :: rest)) :
    ReadsOperand depth terms (⟨"("⟩ :: tokens) condition count rest := by
  obtain ⟨shorter, clause⟩ := clause
  have bound : rest.length + 1 < tokens.length := shorter
  refine ⟨by simp only [List.length_cons]; omega, ?_⟩
  rw [readOperand, if_neg (Nat.not_le.mpr shallow), clause]
  simp only [if_true]

theorem readsOperand_comparison {reference sign value : Token} {table : Option String}
    {column : String} {comparator : Comparator} {literal : Literal}
    (few : terms < maxConditionTerms) (names : Attribute.ofToken reference = .ok ⟨table, column⟩)
    (compares : Comparator.ofText? sign.spelling = some comparator)
    (gives : Literal.ofValue value = .ok literal) :
    ReadsOperand depth terms (reference :: sign :: value :: rest)
      (comparison column comparator literal) (terms + 1) rest := by
  have other : ∀ inner, reference :: sign :: value :: rest = ⟨"("⟩ :: inner → False := by
    rintro inner same
    obtain ⟨rfl⟩ := (List.cons.inj same).1
    exact absurd names (by simp [Attribute.ofToken, List.splitOn_eq_singleton, isPlain])
  refine ⟨by simp only [List.length_cons]; omega, ?_⟩
  rw [readOperand.eq_2 _ _ _ other, if_neg (Nat.not_le.mpr few)]
  simp only [readComparison, names, compares, gives]

theorem readsOperand_spelling {column : String} {comparator : Comparator} {literal : Literal}
    (few : terms < maxConditionTerms) (plain : isPlain column.toList)
    (expressible : literal.Expressible) :
    ReadsOperand depth terms (⟨column⟩ :: ⟨comparator.spelling⟩ :: ⟨literal.spelling⟩ :: rest)
      (comparison column comparator literal) (terms + 1) rest :=
  readsOperand_comparison few (Attribute.Expressible.of_column plain).ofToken
    comparator.ofText?_spelling expressible.ofValue

/-- The induction is on the condition; an operand in parentheses is one place deeper. -/
theorem IsWritable.readsClause (writable : condition.IsWritable)
    (shallow : depth + condition.nesting ≤ maxConditionDepth)
    (few : terms + condition.terms ≤ maxConditionTerms)
    (ends : ∀ token ∈ rest.head?, Connective.ofText? token.spelling = none) :
    ReadsClause depth terms (condition.spellings.map Token.mk ++ rest) condition
      (terms + condition.terms) rest := by
  induction condition generalizing depth terms rest with
  | comparison column comparator literal =>
      exact readsClause_of_readsOperand
        (readsOperand_spelling (Nat.lt_of_succ_le few) writable.1 writable.2) ends
  | combine connective left right leftHypothesis rightHypothesis =>
      rw [terms_combine] at few ⊢
      rw [nesting_combine] at shallow
      have clause : ReadsClause depth (terms + left.terms) _ right
          (terms + left.terms + right.terms) rest :=
        rightHypothesis writable.2 (by omega) (by omega) ends
      rw [← Nat.add_assoc]
      cases left with
      | comparison column comparator literal =>
          have one : (comparison column comparator literal).terms = 1 := rfl
          refine readsClause_combine connective.ofText?_spelling ?_ clause
          exact readsOperand_spelling (by omega) writable.1.1 writable.1.2
      | combine inner first second =>
          have enclosed : (combine inner first second).operandNesting =
            (combine inner first second).nesting + 1 := rfl
          have closing : ∀ token ∈ (⟨")"⟩ :: ⟨connective.keyword.spelling⟩ ::
              (right.spellings.map Token.mk ++ rest)).head?,
              Connective.ofText? token.spelling = none := by
            rintro token ⟨⟩
            decide
          have inside : ReadsClause (depth + 1) terms _ (combine inner first second)
              (terms + (combine inner first second).terms) _ :=
            leftHypothesis writable.1 (by omega) (by omega) closing
          have joined := readsClause_combine connective.ofText?_spelling
            (readsOperand_enclosed (by omega) inside) clause
          simpa [spellings, isLeaf] using joined

theorem Expressible.read (expressible : condition.Expressible)
    (ends : ∀ token ∈ rest.head?, Connective.ofText? token.spelling = none) :
    read (condition.spellings.map Token.mk ++ rest) = .ok (condition, rest) := by
  have clause : ReadsClause 0 0 (condition.spellings.map Token.mk ++ rest) condition
      (0 + condition.terms) rest :=
    expressible.writable.readsClause (by simpa using expressible.nesting)
      (by simpa using expressible.terms) ends
  obtain ⟨shorter, found⟩ := clause
  rw [Condition.read, found]

end Condition

namespace Reader

theorem bind_ok {First Second : Type} {reader : Reader First} {tokens rest : List Token}
    {result : First} (read : reader tokens = .ok (result, rest)) (next : First → Reader Second) :
    (reader >>= next) tokens = next result rest := by
  change (do let found ← reader tokens; next found.1 found.2) = _
  rw [read]
  rfl

theorem next_cons (part : Part) (token : Token) (rest : List Token) :
    next part (token :: rest) = .ok (token, rest) := rfl

theorem takeIf_cons (test : Token → Bool) (token : Token) (rest : List Token) :
    takeIf test (token :: rest) = .ok (test token, if test token then rest else token :: rest) := by
  cases tested : test token <;> refine (bind_ok rfl _).trans ?_ <;> simp only [tested] <;> rfl

theorem takeKeyword_cons (word : Keyword) (rest : List Token) :
    takeKeyword word (⟨word.spelling⟩ :: rest) = .ok (true, rest) := by
  rw [takeKeyword, takeIf_cons, word.isSpelledBy_spelling]
  rfl

theorem keyword_cons (word : Keyword) (rest : List Token) :
    keyword word (⟨word.spelling⟩ :: rest) = .ok ((), rest) := by
  apply (bind_ok (next_cons _ _ _) _).trans
  simp only [word.isSpelledBy_spelling, if_true]
  rfl

theorem symbol_cons (spelling : String) (rest : List Token) :
    symbol spelling (⟨spelling⟩ :: rest) = .ok ((), rest) := by
  apply (bind_ok (next_cons _ _ _) _).trans
  simp only [if_true]
  rfl

theorem name_cons_lowercase {spelling : String} (plain : isPlain spelling.toList) (part : Part)
    (rest : List Token) : name part (⟨spelling⟩ :: rest) = .ok (lowercase spelling, rest) := by
  have read : nameOfToken part ⟨spelling⟩ = .ok (lowercase spelling) := if_pos plain
  apply (bind_ok (next_cons _ _ _) _).trans
  rw [read]
  rfl

theorem name_cons {spelling : String} (named : IsName spelling) (part : Part)
    (rest : List Token) : name part (⟨spelling⟩ :: rest) = .ok (spelling, rest) := by
  have read := name_cons_lowercase named.plain part rest
  rwa [named.lower] at read

theorem reference_cons {column : Attribute} (expressible : column.Expressible)
    (rest : List Token) : reference (⟨column.spelling⟩ :: rest) = .ok (column, rest) := by
  apply (bind_ok (next_cons _ _ _) _).trans
  rw [expressible.ofToken]
  rfl

theorem ofStep_of_reads {Item : Type} {step : Step Item} {tokens rest : List Token} {result : Item}
    (found : step.Reads tokens result rest) : ofStep step tokens = .ok (result, rest) := by
  obtain ⟨shorter, found⟩ := found
  rw [ofStep, found]

theorem reads_columnStep {column : String} (plain : isPlain column.toList) (rest : List Token) :
    Step.Reads columnStep (⟨column⟩ :: rest) column rest := by
  have read : Attribute.ofToken ⟨column⟩ = .ok ⟨none, column⟩ :=
    (Attribute.Expressible.of_column plain).ofToken
  apply Step.reads_single
  rw [read]
  rfl

theorem reads_valueStep {value : Literal} (expressible : value.Expressible) (rest : List Token) :
    Step.Reads valueStep (⟨value.spelling⟩ :: rest) value rest :=
  Step.reads_single expressible.ofValue rest

theorem reads_assignmentStep {column : String} {value : Literal} (plain : isPlain column.toList)
    (expressible : value.Expressible) (rest : List Token) :
    Step.Reads assignmentStep (⟨column⟩ :: ⟨"="⟩ :: ⟨value.spelling⟩ :: rest)
      (column, value) rest := by
  obtain ⟨shorter, target⟩ := reads_columnStep plain (⟨"="⟩ :: ⟨value.spelling⟩ :: rest)
  obtain ⟨stillShorter, given⟩ := reads_valueStep expressible rest
  refine ⟨Rest.lt_of_cons shorter stillShorter, ?_⟩
  rw [assignmentStep, target]
  simp only [if_true, given]

variable (rest : List Token)

theorem columns_append {names : List String} (nonempty : names ≠ [])
    (plain : ∀ column ∈ names, isPlain column.toList)
    (ends : ∀ token ∈ rest.head?, token.spelling ≠ ",") :
    columns ((listed (fun column => [column]) names).map Token.mk ++ rest) = .ok (names, rest) :=
  ofStep_of_reads (Step.reads_separated nonempty
    (fun column member => reads_columnStep (plain column member)) ends)

theorem values_append {row : List Literal} (nonempty : row ≠ [])
    (expressible : ∀ value ∈ row, value.Expressible)
    (ends : ∀ token ∈ rest.head?, token.spelling ≠ ",") :
    values ((listed (fun value => [value.spelling]) row).map Token.mk ++ rest) = .ok (row, rest) :=
  ofStep_of_reads (Step.reads_separated nonempty
    (fun value member => reads_valueStep (expressible value member)) ends)

theorem assignments_append {changes : List (String × Literal)} (nonempty : changes ≠ [])
    (expressible : ∀ change ∈ changes, isPlain change.1.toList ∧ change.2.Expressible)
    (ends : ∀ token ∈ rest.head?, token.spelling ≠ ",") :
    assignments ((listed (fun change => [change.1, "=", change.2.spelling]) changes).map Token.mk
      ++ rest) = .ok (changes, rest) :=
  ofStep_of_reads (Step.reads_separated nonempty (fun change member =>
    reads_assignmentStep (expressible change member).1 (expressible change member).2) ends)

theorem takeKeyword_other (word other : Keyword) (different : word ≠ other) (rest : List Token) :
    takeKeyword word (⟨other.spelling⟩ :: rest) = .ok (false, ⟨other.spelling⟩ :: rest) := by
  have unspelled : word.isSpelledBy other.spelling = false := by
    by_contra spelled
    rw [Bool.not_eq_false] at spelled
    exact different (Keyword.spelling_injective _ _
      (eq_of_spells spelled other.isSpelledBy_spelling))
  rw [takeKeyword, takeIf_cons, unspelled]
  rfl

theorem selection_append {chosen : Selection} (expressible : chosen.Expressible)
    (ends : ∀ token ∈ rest.head?, token.spelling ≠ ",") :
    selection (chosen.spellings.map Token.mk ++ rest) = .ok (chosen, rest) := by
  cases chosen with
  | all => exact bind_ok (takeIf_cons _ _ _) _
  | only names =>
      obtain ⟨nonempty, plain⟩ := expressible
      obtain ⟨first, others, rfl⟩ := List.exists_cons_of_ne_nil nonempty
      have listedFirst : ∃ later, listed (fun column => [column]) (first :: others) =
          first :: later := by
        cases others with
        | nil => exact ⟨[], rfl⟩
        | cons second others => exact ⟨_, List.intercalate_cons_cons⟩
      obtain ⟨later, shape⟩ := listedFirst
      have noStar : takeSymbol "*" (⟨first⟩ :: (later.map Token.mk ++ rest)) =
          .ok (false, ⟨first⟩ :: (later.map Token.mk ++ rest)) := by
        have different : first ≠ "*" := by
          rintro rfl
          exact absurd (plain "*" List.mem_cons_self) (by decide)
        rw [takeSymbol, takeIf_cons]
        simp [different]
      have names := columns_append rest nonempty plain ends
      rw [shape] at names
      rw [Selection.spellings, shape]
      apply (bind_ok noStar _).trans
      exact bind_ok names _

theorem takeKeyword_semicolon (word : Keyword) (rest : List Token) :
    takeKeyword word (⟨";"⟩ :: rest) = .ok (false, ⟨";"⟩ :: rest) := by
  have unspelled : word.isSpelledBy ";" = false := by cases word <;> decide
  rw [takeKeyword, takeIf_cons, unspelled]
  rfl

theorem condition_semicolon {filter : Condition} (expressible : filter.Expressible) :
    condition (filter.spellings.map Token.mk ++ [⟨";"⟩]) = .ok (filter, [⟨";"⟩]) := by
  apply expressible.read
  rintro token ⟨⟩
  decide

theorem create_table {table : String} {names : List String} (named : IsName table)
    (plain : ∀ column ∈ names, isPlain column.toList) :
    create ((Statement.createTable table names).bodySpellings.map Token.mk ++ [⟨";"⟩]) =
      .ok (.createTable table names, [⟨";"⟩]) := by
  cases names with
  | nil =>
      apply (bind_ok (takeKeyword_other .database .table nofun _) _).trans
      apply (bind_ok (takeKeyword_cons .table _) _).trans
      apply (bind_ok (name_cons named _ _) _).trans
      exact bind_ok (takeIf_cons _ _ _) _
  | cons first others =>
      have columns := columns_append (⟨")"⟩ :: [⟨";"⟩]) (List.cons_ne_nil first others) plain
        (by rintro token ⟨⟩; decide)
      simp only [Statement.bodySpellings, List.map_cons, List.map_append, List.cons_append,
        List.append_assoc, List.map_nil, List.nil_append]
      apply (bind_ok (takeKeyword_other .database .table nofun _) _).trans
      apply (bind_ok (takeKeyword_cons .table _) _).trans
      apply (bind_ok (name_cons named _ _) _).trans
      apply (bind_ok (takeIf_cons _ _ _) _).trans
      apply (bind_ok columns _).trans
      exact bind_ok (symbol_cons _ _) _

/-- Behind its verb a statement is read up to the semicolon. -/
theorem body_semicolon {statement : Statement} (expressible : statement.Expressible) :
    body statement.verb (statement.bodySpellings.map Token.mk ++ [⟨";"⟩]) =
      .ok (statement, [⟨";"⟩]) := by
  cases statement with
  | use database => exact bind_ok (name_cons expressible _ _) _
  | createDatabase database =>
      apply (bind_ok (takeKeyword_cons .database _) _).trans
      exact bind_ok (name_cons expressible _ _) _
  | createTable table columns => exact create_table expressible.1 expressible.2
  | dropDatabase database =>
      apply (bind_ok (takeKeyword_cons .database _) _).trans
      exact bind_ok (name_cons expressible _ _) _
  | dropTable table =>
      apply (bind_ok (takeKeyword_other .database .table nofun _) _).trans
      apply (bind_ok (takeKeyword_cons .table _) _).trans
      exact bind_ok (name_cons expressible _ _) _
  | alter table alteration column =>
      obtain ⟨named, plain⟩ := expressible
      have change : Reader.alteration (⟨alteration.keyword.spelling⟩ :: ⟨column⟩ :: [⟨";"⟩]) =
          .ok (alteration, ⟨column⟩ :: [⟨";"⟩]) := by
        apply (bind_ok (next_cons _ _ _) _).trans
        cases alteration <;> rfl
      have target := reference_cons (Attribute.Expressible.of_column plain) [⟨";"⟩]
      apply (bind_ok (keyword_cons .table _) _).trans
      apply (bind_ok (name_cons named _ _) _).trans
      apply (bind_ok change _).trans
      exact bind_ok target _
  | insert table values =>
      obtain ⟨named, nonempty, expressible⟩ := expressible
      have row := values_append (⟨")"⟩ :: [⟨";"⟩]) nonempty expressible
        (by rintro token ⟨⟩; decide)
      simp only [Statement.bodySpellings, List.map_cons, List.map_append, List.cons_append,
        List.append_assoc, List.map_nil, List.nil_append]
      apply (bind_ok (keyword_cons .into _) _).trans
      apply (bind_ok (name_cons named _ _) _).trans
      apply (bind_ok (keyword_cons .values _) _).trans
      apply (bind_ok (symbol_cons _ _) _).trans
      apply (bind_ok row _).trans
      exact bind_ok (symbol_cons _ _) _
  | select columns table condition =>
      obtain ⟨chosen, named, filters⟩ := expressible
      have noComma : ∀ rest : List Token, ∀ token ∈ (⟨Keyword.from.spelling⟩ :: rest).head?,
          token.spelling ≠ "," := by
        rintro rest token ⟨⟩
        decide
      cases condition with
      | none =>
          simp only [Statement.bodySpellings, List.map_append, List.append_assoc]
          apply (bind_ok (selection_append _ chosen (noComma _)) _).trans
          apply (bind_ok (keyword_cons .from _) _).trans
          apply (bind_ok (name_cons named _ _) _).trans
          exact bind_ok (takeKeyword_semicolon _ _) _
      | some filter =>
          simp only [Statement.bodySpellings, List.map_append, List.append_assoc]
          apply (bind_ok (selection_append _ chosen (noComma _)) _).trans
          apply (bind_ok (keyword_cons .from _) _).trans
          apply (bind_ok (name_cons named _ _) _).trans
          apply (bind_ok (takeKeyword_cons .where _) _).trans
          exact bind_ok (condition_semicolon (filters filter rfl)) _
  | update table assignments condition =>
      obtain ⟨named, nonempty, expressible, filter⟩ := expressible
      have changes := assignments_append
        (⟨Keyword.where.spelling⟩ :: (condition.spellings.map Token.mk ++ [⟨";"⟩])) nonempty
        expressible (by rintro token ⟨⟩; decide)
      simp only [Statement.bodySpellings, List.map_cons, List.map_append, List.cons_append,
        List.append_assoc]
      apply (bind_ok (name_cons named _ _) _).trans
      apply (bind_ok (keyword_cons .set _) _).trans
      apply (bind_ok changes _).trans
      apply (bind_ok (keyword_cons .where _) _).trans
      exact bind_ok (condition_semicolon filter) _
  | delete table condition =>
      obtain ⟨named, filter⟩ := expressible
      apply (bind_ok (keyword_cons .from _) _).trans
      apply (bind_ok (name_cons named _ _) _).trans
      apply (bind_ok (keyword_cons .where _) _).trans
      exact bind_ok (condition_semicolon filter) _
  | join first second firstAttribute secondAttribute =>
      obtain ⟨firstNamed, secondNamed, firstReference, secondReference⟩ := expressible
      apply (bind_ok (name_cons firstNamed _ _) _).trans
      apply (bind_ok (keyword_cons .and _) _).trans
      apply (bind_ok (name_cons secondNamed _ _) _).trans
      apply (bind_ok (keyword_cons .on _) _).trans
      apply (bind_ok (reference_cons firstReference _) _).trans
      apply (bind_ok (keyword_cons .and _) _).trans
      exact bind_ok (reference_cons secondReference _) _

theorem statement_spellings {command : Statement} (expressible : command.Expressible) :
    statement (command.spellings.map Token.mk ++ [⟨";"⟩]) = .ok (command, []) := by
  apply (bind_ok (next_cons _ _ _) _).trans
  simp only [command.verb.ofText?_spelling]
  exact bind_ok (body_semicolon expressible) _

end Reader

namespace Statement

/-- What can be expressed is read back from its canonical spelling. -/
theorem parse_print {statement : Statement} (expressible : statement.Expressible) :
    parse statement.print = .ok statement := by
  rw [parse, expressible.scan_print, Reader.statement_spellings expressible]
  rfl

/-- A table without further columns is asked for by its name, in either case. -/
theorem parse_createTable {name : String} (plain : isPlain name.toList) :
    parse (sentence ["CREATE", "TABLE", name]) = .ok (.createTable (lowercase name) []) := by
  have verb : Token.IsSpelled "CREATE".toList := .of_isPlain (by decide)
  have spelled : Token.AreSpelled ["CREATE", "TABLE", name] :=
    .cons verb (.cons (isSpelled_keyword .table) (.cons (.of_isPlain plain) .nil))
  have scanned := Token.scan_sentence (List.cons_ne_nil _ _) spelled
  have created : Reader.create [⟨"TABLE"⟩, ⟨name⟩, ⟨";"⟩] =
      .ok (.createTable (lowercase name) [], [⟨";"⟩]) := by
    apply (Reader.bind_ok (Reader.takeKeyword_other .database .table nofun _)
      _).trans
    apply (Reader.bind_ok (Reader.takeKeyword_cons .table _) _).trans
    apply (Reader.bind_ok (Reader.name_cons_lowercase plain _ _) _).trans
    exact Reader.bind_ok (Reader.takeIf_cons _ _ _) _
  have read : Reader.statement [⟨"CREATE"⟩, ⟨"TABLE"⟩, ⟨name⟩, ⟨";"⟩] =
      .ok (.createTable (lowercase name) [], []) := by
    apply (Reader.bind_ok (Reader.next_cons _ _ _) _).trans
    exact Reader.bind_ok created _
  rw [parse, scanned]
  exact congrArg (Except.map Prod.fst) read

end Statement

end TextTables
