import TextTables.Proofs.Statement.Filters

/-!
# The productions of statements

What a reader has read is taken apart into what its parts have read. A property that the readers of
the parts have, and that is kept when one reader follows another, is a property of the readers of
all statements. What is read goes with it, so that the property can speak of the literals among the
tokens and of the result.
-/

namespace TextTables

/-- The literals of the condition, from left to right. -/
def Condition.literals : Condition → List Literal
  | comparison _ _ literal => [literal]
  | combine _ left right => left.literals ++ right.literals

/-- The literals that the statement inserts, assigns or compares with. -/
def Statement.literals : Statement → List Literal
  | insert _ values => values
  | select _ _ condition => condition.toList.flatMap Condition.literals
  | update _ assignments condition => assignments.map Prod.snd ++ condition.literals
  | delete _ condition => condition.literals
  | use _ | createDatabase _ | createTable _ _ | dropDatabase _ | dropTable _ | alter _ _ _
  | join _ _ _ _ => []

/-! ## What was read -/

namespace Step

variable {α : Type}

theorem single_eq_ok {part : Part} {item : Token → Except Error α} {tokens : List Token}
    {result : α} {rest : Rest tokens} (read : single part item tokens = .ok (result, rest)) :
    ∃ token, tokens = token :: rest.val ∧ item token = .ok result := by
  cases tokens with
  | nil => cases read
  | cons token others =>
      simp only [single] at read
      split at read
      · cases read
      · rename_i found
        cases read
        exact ⟨token, rfl, found⟩

/-- The items are read one behind the other, with a comma between any two. -/
inductive Lists (item : Step α) : List Token → List α → List Token → Prop
  | last {tokens : List Token} {first : α} {rest : Rest tokens}
      (found : item tokens = .ok (first, rest)) : Lists item tokens [first] rest.val
  | more {tokens after rest : List Token} {first : α} {others : List α} {comma : Token}
      {shorter : (comma :: after).length < tokens.length}
      (found : item tokens = .ok (first, ⟨comma :: after, shorter⟩)) (spelled : comma.spelling = ",")
      (further : Lists item after others rest) : Lists item tokens (first :: others) rest

theorem lists_of_separated {item : Step α} (tokens : List Token) :
    ∀ results rest, separated item tokens = .ok (results, rest) →
      Lists item tokens results rest.val := by
  induction tokens using separated.induct item with
  | case1 tokens error failed =>
      intro results rest read
      rw [separated, failed] at read
      cases read
  | case2 tokens first shorter found =>
      intro results rest read
      rw [separated, found] at read
      cases read
      exact .last found
  | case3 tokens first comma after shorter found isComma error failed inductionHypothesis =>
      intro results rest read
      rw [separated, found] at read
      simp only [isComma, if_true, failed] at read
      cases read
  | case4 tokens first comma after shorter found isComma others left stillShorter further
      inductionHypothesis =>
      intro results rest read
      rw [separated, found] at read
      simp only [isComma, if_true, further] at read
      cases read
      exact .more found isComma (inductionHypothesis _ _ further)
  | case5 tokens first comma after shorter found noComma =>
      intro results rest read
      rw [separated, found] at read
      simp only [noComma] at read
      cases read
      exact .last found

end Step

namespace Reader

theorem ofStep_eq_ok {α : Type} {step : Step α} {tokens rest : List Token} {result : α}
    (read : ofStep step tokens = .ok (result, rest)) :
    ∃ shorter, step tokens = .ok (result, ⟨rest, shorter⟩) := by
  unfold ofStep at read
  split at read
  · cases read
  · rename_i rest found
    cases read
    exact ⟨rest.property, found⟩

theorem columnStep_eq_ok {tokens : List Token} {column : String} {rest : Rest tokens}
    (read : columnStep tokens = .ok (column, rest)) :
    ∃ token reference, tokens = token :: rest.val ∧ Attribute.ofToken token = .ok reference ∧
      reference.column = column := by
  obtain ⟨token, taken, found⟩ := Step.single_eq_ok read
  cases named : Attribute.ofToken token with
  | error error =>
      rw [named] at found
      cases found
  | ok reference =>
      rw [named] at found
      cases found
      exact ⟨token, reference, taken, named, rfl⟩

theorem assignmentStep_eq_ok {tokens : List Token} {assignment : String × Literal}
    {rest : Rest tokens} (read : assignmentStep tokens = .ok (assignment, rest)) :
    ∃ sign after shorter stillShorter,
      columnStep tokens = .ok (assignment.1, ⟨sign :: after, shorter⟩) ∧ sign.spelling = "=" ∧
        valueStep after = .ok (assignment.2, ⟨rest.val, stillShorter⟩) := by
  unfold assignmentStep at read
  split at read
  · cases read
  · cases read
  · rename_i target sign after shorter found
    split at read
    · rename_i equals
      split at read
      · cases read
      · rename_i rest stillShorter given
        cases read
        exact ⟨sign, after, shorter, stillShorter, found, equals, given⟩
    · cases read

/-- A statement is its verb, what belongs to the verb, and one semicolon. -/
theorem statement_eq_ok {tokens rest : List Token} {result : Statement}
    (read : statement tokens = .ok (result, rest)) :
    ∃ token others verb, tokens = token :: others ∧ Verb.ofText? token.spelling = some verb ∧
      body verb others = .ok (result, [⟨";"⟩]) ∧ rest = [] := by
  obtain ⟨token, between, taken, afterVerb⟩ := bind_eq_ok read
  cases tokens with
  | nil => cases taken
  | cons first others =>
      cases taken
      cases known : Verb.ofText? token.spelling with
      | none =>
          simp only [known] at afterVerb
          cases afterVerb
      | some verb =>
          simp only [known] at afterVerb
          obtain ⟨command, behind, found, afterBody⟩ := bind_eq_ok afterVerb
          obtain ⟨⟨⟩, last, ends, done⟩ := bind_eq_ok afterBody
          obtain ⟨rfl, rfl⟩ := terminator_eq_ok ends
          cases done
          exact ⟨token, _, verb, rfl, known, found, rfl⟩

end Reader

theorem Statement.parse_eq_ok_iff {text : String} {result : Statement} :
    parse text = .ok result ↔
      ∃ rest, Reader.statement (Token.scan text) = .ok (result, rest) :=
  Reader.map_fst_eq_ok_iff

theorem Statement.parse_eq_ok {text : String} {result : Statement}
    (read : parse text = .ok result) :
    ∃ token others verb, Token.scan text = token :: others ∧
      Verb.ofText? token.spelling = some verb ∧
        Reader.body verb others = .ok (result, [⟨";"⟩]) := by
  obtain ⟨rest, found⟩ := parse_eq_ok_iff.mp read
  obtain ⟨token, others, verb, scanned, known, body, -⟩ := Reader.statement_eq_ok found
  exact ⟨token, others, verb, scanned, known, body⟩

/-! ## What all readers have in common -/

namespace Reader

/-- What a reader is to read: the literals among its tokens, and its result. -/
abbrev Goal (α : Type) := List Literal → α → Prop

/-- The literals are those of the result, and the result has the property. -/
def Goal.reads {α : Type} (literals : α → List Literal) (property : α → Prop) : Goal α :=
  fun found result => found = literals result ∧ property result

/-- There are no literals, and the result has the property. -/
abbrev Goal.bare {α : Type} (property : α → Prop) : Goal α :=
  reads (fun _ => []) property

/-- The literals are those of the statement, which can be expressed. -/
abbrev Goal.statement : Goal Statement :=
  reads Statement.literals Statement.Expressible

/-- The property of readers, with what they read, holds of the parts of statements. It is kept when
the first reader is followed by another, which may rely on what was read before. -/
structure Closed (holds : (α : Type) → Reader α → Goal α → Prop) : Prop where
  pure {α : Type} {goal : Goal α} {result : α} : goal [] result → holds α (pure result) goal
  fail {α : Type} {goal : Goal α} (cause : SyntaxError) : holds α (fail cause) goal
  bind {α β : Type} {reader : Reader α} {next : α → Reader β} {part : Goal α} {goal : Goal β} :
    holds α reader part →
      (∀ literals result, holds β (next result) fun others last =>
        part literals result → goal (literals ++ others) last) →
      holds β (reader >>= next) goal
  takeKeyword (word : Keyword) : holds Bool (takeKeyword word) (.bare fun _ => True)
  -- Only these symbols are asked for within a statement. The semicolon comes behind it.
  takeSymbol : ∀ spelling ∈ ["(", "*"],
    holds Bool (takeSymbol spelling) (.bare fun _ => True)
  keyword (word : Keyword) : holds Unit (keyword word) (.bare fun _ => True)
  symbol : ∀ spelling ∈ ["(", ")"], holds Unit (symbol spelling) (.bare fun _ => True)
  name (part : Part) : holds String (name part) (.bare IsName)
  reference : holds Attribute reference (.bare Attribute.Expressible)
  alteration : holds Alteration alteration (.bare fun _ => True)
  columns : holds (List String) columns
    (.bare fun names => names ≠ [] ∧ ∀ name ∈ names, isPlain name.toList)
  values : holds (List Literal) values
    (.reads id fun row => row ≠ [] ∧ ∀ value ∈ row, value.Expressible)
  assignments : holds (List (String × Literal)) assignments
    (.reads (List.map Prod.snd) fun changes => changes ≠ [] ∧
      ∀ change ∈ changes, isPlain change.1.toList ∧ change.2.Expressible)
  condition : holds Condition condition (.reads Condition.literals Condition.Expressible)

namespace Closed

variable {holds : (α : Type) → Reader α → Goal α → Prop} {α β : Type}

theorem mono (closed : Closed holds) {reader : Reader α} {goal weaker : Goal α}
    (strong : holds α reader goal)
    (implies : ∀ literals result, goal literals result → weaker literals result) :
    holds α reader weaker := by
  have followed : holds α (reader >>= Pure.pure) weaker :=
    closed.bind strong fun literals result => closed.pure fun reached => by
      rw [List.append_nil]
      exact implies literals result reached
  rwa [bind_pure] at followed

/-- The literals are counted from the first reader that can read one. -/
theorem skip (closed : Closed holds) {reader : Reader α} {next : α → Reader β}
    {property : α → Prop} {goal : Goal β} (first : holds α reader (.bare property))
    (second : ∀ result, holds β (next result) fun literals last =>
      property result → goal literals last) :
    holds β (reader >>= next) goal := by
  refine closed.bind first fun literals result => closed.mono (second result) ?_
  rintro others last later ⟨rfl, reached⟩
  exact later reached

theorem selection (closed : Closed holds) :
    holds Selection selection (.bare Selection.Expressible) := by
  refine closed.skip (closed.takeSymbol "*" (by decide)) fun all => ?_
  split
  · exact closed.pure fun _ => ⟨rfl, trivial⟩
  · exact closed.skip closed.columns fun names => closed.pure fun plain _ => ⟨rfl, plain⟩

theorem create (closed : Closed holds) : holds Statement create .statement := by
  refine closed.skip (closed.takeKeyword _) fun database => ?_
  split
  · exact closed.skip (closed.name _) fun name => closed.pure fun named _ => ⟨rfl, named⟩
  refine closed.skip (closed.takeKeyword _) fun table => ?_
  split
  · refine closed.skip (closed.name _) fun name => ?_
    refine closed.skip (closed.takeSymbol "(" (by decide)) fun opened => ?_
    split
    · refine closed.skip closed.columns fun names => ?_
      refine closed.skip (closed.symbol ")" (by decide)) fun _ => ?_
      exact closed.pure fun _ plain _ named _ _ => ⟨rfl, named, plain.2⟩
    · exact closed.pure fun _ named _ _ => ⟨rfl, named, List.forall_mem_nil _⟩
  · exact closed.fail _

theorem drop (closed : Closed holds) : holds Statement drop .statement := by
  refine closed.skip (closed.takeKeyword _) fun database => ?_
  split
  · exact closed.skip (closed.name _) fun name => closed.pure fun named _ => ⟨rfl, named⟩
  refine closed.skip (closed.takeKeyword _) fun table => ?_
  split
  · exact closed.skip (closed.name _) fun name => closed.pure fun named _ _ => ⟨rfl, named⟩
  · exact closed.fail _

theorem alter (closed : Closed holds) : holds Statement alter .statement := by
  refine closed.skip (closed.keyword _) fun _ => closed.skip (closed.name _) fun name => ?_
  refine closed.skip closed.alteration fun change => ?_
  refine closed.skip closed.reference fun reference => ?_
  exact closed.pure fun expressible _ named _ => ⟨rfl, named, expressible.column⟩

theorem insert (closed : Closed holds) : holds Statement insert .statement := by
  refine closed.skip (closed.keyword _) fun _ => closed.skip (closed.name _) fun name => ?_
  refine closed.skip (closed.keyword _) fun _ => ?_
  refine closed.skip (closed.symbol "(" (by decide)) fun _ => ?_
  refine closed.bind closed.values fun literals row => ?_
  refine closed.skip (closed.symbol ")" (by decide)) fun _ => closed.pure ?_
  rintro - ⟨rfl, written⟩ - - named -
  exact ⟨List.append_nil _, named, written⟩

theorem select (closed : Closed holds) : holds Statement select .statement := by
  refine closed.skip closed.selection fun chosen => closed.skip (closed.keyword _) fun _ => ?_
  refine closed.skip (closed.name _) fun name => ?_
  refine closed.skip (closed.takeKeyword _) fun filtered => ?_
  split
  · refine closed.bind closed.condition fun literals filter => closed.pure ?_
    rintro ⟨rfl, fits⟩ - named - expressible
    refine ⟨rfl, expressible, named, ?_⟩
    rintro given ⟨⟩
    exact fits
  · exact closed.pure fun _ named _ expressible => ⟨rfl, expressible, named, nofun⟩

theorem update (closed : Closed holds) : holds Statement update .statement := by
  refine closed.skip (closed.name _) fun name => closed.skip (closed.keyword _) fun _ => ?_
  refine closed.bind closed.assignments fun assigned changes => ?_
  refine closed.skip (closed.keyword _) fun _ => ?_
  refine closed.bind closed.condition fun compared filter => closed.pure ?_
  rintro ⟨rfl, fits⟩ - ⟨rfl, nonempty, written⟩ - named
  exact ⟨by rw [List.append_nil]; rfl, named, nonempty, written, fits⟩

theorem delete (closed : Closed holds) : holds Statement delete .statement := by
  refine closed.skip (closed.keyword _) fun _ => closed.skip (closed.name _) fun name => ?_
  refine closed.skip (closed.keyword _) fun _ => ?_
  refine closed.bind closed.condition fun literals filter => closed.pure ?_
  rintro ⟨rfl, fits⟩ - named -
  exact ⟨List.append_nil _, named, fits⟩

theorem join (closed : Closed holds) : holds Statement join .statement := by
  refine closed.skip (closed.name _) fun first => closed.skip (closed.keyword _) fun _ => ?_
  refine closed.skip (closed.name _) fun second => closed.skip (closed.keyword _) fun _ => ?_
  refine closed.skip closed.reference fun left => closed.skip (closed.keyword _) fun _ => ?_
  refine closed.skip closed.reference fun right => closed.pure ?_
  exact fun rightWritten _ leftWritten _ secondNamed _ firstNamed =>
    ⟨rfl, firstNamed, secondNamed, leftWritten, rightWritten⟩

/-- What holds of the parts holds of what follows any verb. -/
theorem body (closed : Closed holds) (verb : Verb) : holds Statement (body verb) .statement := by
  cases verb with
  | use => exact closed.skip (closed.name _) fun name => closed.pure fun named => ⟨rfl, named⟩
  | create => exact closed.create
  | drop => exact closed.drop
  | alter => exact closed.alter
  | insert => exact closed.insert
  | select => exact closed.select
  | update => exact closed.update
  | delete => exact closed.delete
  | join => exact closed.join

end Closed

end Reader

end TextTables
