import TextTables.Proofs.Statement.Productions
import TextTables.Proofs.Token.Ends

/-!
# The tokens of commands

A command that is read ends with a semicolon. All tokens in front of it are on one line, none of
them ends with a semicolon, and the first one, being a verb, does not begin with a point.
-/

namespace TextTables

open Text

/-- A token that a command can have in front of its end. -/
structure Token.IsInner (token : Token) : Prop where
  oneLine : '\n' ∉ token.characters
  noEnd : token.characters.getLast? ≠ some ';'

instance (token : Token) : Decidable token.IsInner :=
  decidable_of_iff ('\n' ∉ token.characters ∧ token.characters.getLast? ≠ some ';')
    ⟨fun ⟨oneLine, noEnd⟩ => ⟨oneLine, noEnd⟩, fun ⟨oneLine, noEnd⟩ => ⟨oneLine, noEnd⟩⟩

namespace Token

variable {token : Token}

theorem isInner_of_not_mem (oneLine : '\n' ∉ token.characters) (noEnd : ';' ∉ token.characters) :
    token.IsInner :=
  ⟨oneLine, fun last => noEnd (List.mem_of_getLast? last)⟩

theorem isInner_of_spelling {spelling : String} (inner : IsInner ⟨spelling⟩)
    (spelled : token.spelling = spelling) : token.IsInner := by
  subst spelled
  exact inner

theorem isInner_of_isPlain (plain : isPlain token.characters) : token.IsInner := by
  have letters := (isPlain_iff.mp plain).2
  exact isInner_of_not_mem (fun member => absurd (letters _ member) (by decide))
    fun member => absurd (letters _ member) (by decide)

/-- A word of the language is spelled without the characters that are not in its capital form. -/
theorem isInner_of_spells {word : String} (oneLine : '\n' ∉ word.toList) (noEnd : ';' ∉ word.toList)
    (spelled : spells token.spelling word) : token.IsInner :=
  isInner_of_not_mem (fun member => oneLine (mem_of_spells spelled member (by decide)))
    fun member => noEnd (mem_of_spells spelled member (by decide))

theorem isInner_of_isSpelledBy {word : Keyword} (spelled : word.isSpelledBy token.spelling) :
    token.IsInner := by
  have plain : ∀ word : Keyword, '\n' ∉ word.spelling.toList ∧ ';' ∉ word.spelling.toList := by
    intro word
    cases word <;> decide
  exact isInner_of_spells (plain word).1 (plain word).2 spelled

theorem isInner_of_ofText? {verb : Verb} (spelled : Verb.ofText? token.spelling = some verb) :
    token.IsInner := by
  have plain : ∀ verb : Verb, '\n' ∉ verb.spelling.toList ∧ ';' ∉ verb.spelling.toList := by
    intro verb
    cases verb <;> decide
  exact isInner_of_spells (plain verb).1 (plain verb).2 (Verb.ofText?_eq_some_iff.mp spelled)

theorem isInner_of_isWritten {reference : Attribute} (written : reference.IsWritten)
    (spelled : token.spelling = reference.spelling) : token.IsInner := by
  have letters := (isPlain_iff.mp written.column).2
  have others : ∀ c ∈ token.characters, c.isAlphanum ∨ c = '.' := by
    intro c member
    rw [characters, spelled, Attribute.spelling] at member
    cases named : reference.table with
    | none =>
        rw [named] at member
        exact .inl (letters c member)
    | some table =>
        rw [named] at member
        simp only [String.toList_append, List.mem_append] at member
        rcases member with (inTable | point) | inColumn
        · exact .inl ((isPlain_iff.mp (written.table table named)).2 c inTable)
        · exact .inr (by simpa using point)
        · exact .inl (letters c inColumn)
  refine isInner_of_not_mem (fun member => ?_) fun member => ?_ <;>
    exact (others _ member).elim (fun letter => absurd letter (by decide)) (by decide)

/-- A value is on one line, and a string ends with its quote. -/
theorem isInner_of_isValue (allowed : isValue token.spelling) : token.IsInner := by
  by_cases string : Kind.of token.spelling = .string
  · simp only [isValue, string, bne_self_eq_false, Bool.false_or, isStringLiteral,
      Bool.and_eq_true] at allowed
    obtain ⟨quoted, harmless⟩ := allowed
    obtain ⟨inside, whole⟩ := isQuoted_iff.mp quoted
    rw [whole, List.cons_append, List.drop_one, List.tail_cons, List.dropLast_concat] at harmless
    constructor
    · intro member
      rw [characters, whole] at member
      simp only [List.cons_append, List.mem_cons, List.mem_append, List.not_mem_nil, or_false]
        at member
      rcases member with opening | within | closing
      · exact absurd opening (by decide)
      · exact absurd (List.all_eq_true.mp harmless _ within) (by decide)
      · exact absurd closing (by decide)
    · rw [characters, whole, List.getLast?_concat]
      decide
  · exact isInner_of_not_mem
      (Kind.not_mem_of_ne_string string (by decide) (by decide) (by decide))
      (Kind.not_mem_of_ne_string string (by decide) (by decide) (by decide))

theorem isInner_of_comparator {comparator : Comparator}
    (spelled : comparator.IsSpelledBy token.spelling) : token.IsInner := by
  cases comparator with
  | like => exact isInner_of_isSpelledBy spelled
  | _ => exact isInner_of_spelling (by decide) spelled

end Token

/-! ## What readers take -/

/-- In front of the rest stand only tokens that a command can have in front of its end. -/
def InnerUpTo (tokens rest : List Token) : Prop :=
  ∃ taken, tokens = taken ++ rest ∧ ∀ token ∈ taken, token.IsInner

namespace InnerUpTo

variable {tokens others rest : List Token} {token : Token}

theorem refl (tokens : List Token) : InnerUpTo tokens tokens :=
  ⟨[], rfl, List.forall_mem_nil _⟩

theorem cons (inner : token.IsInner) (later : InnerUpTo others rest) :
    InnerUpTo (token :: others) rest := by
  obtain ⟨taken, rfl, alsoInner⟩ := later
  exact ⟨token :: taken, rfl, List.forall_mem_cons.mpr ⟨inner, alsoInner⟩⟩

theorem trans (first : InnerUpTo tokens others) (second : InnerUpTo others rest) :
    InnerUpTo tokens rest := by
  obtain ⟨front, rfl, inner⟩ := first
  obtain ⟨back, rfl, alsoInner⟩ := second
  exact ⟨front ++ back, (List.append_assoc ..).symm,
    List.forall_mem_append.mpr ⟨inner, alsoInner⟩⟩

end InnerUpTo

/-- The reader takes only tokens that a command can have in front of its end. -/
def Reader.TakesInner {α : Type} (reader : Reader α) : Prop :=
  ∀ tokens result rest, reader tokens = .ok (result, rest) → InnerUpTo tokens rest

/-- The step takes only tokens that a command can have in front of its end. -/
def Step.TakesInner {α : Type} (step : Step α) : Prop :=
  ∀ tokens result rest, step tokens = .ok (result, rest) → InnerUpTo tokens rest.val

/-- The commas of a list are taken with its items. -/
theorem Step.Lists.innerUpTo {α : Type} {item : Step α} {tokens rest : List Token}
    {results : List α} (listed : Lists item tokens results rest) (each : TakesInner item) :
    InnerUpTo tokens rest := by
  induction listed with
  | last found => exact each _ _ _ found
  | more found spelled further inductionHypothesis =>
      have comma := Token.isInner_of_spelling (by decide) spelled
      exact (each _ _ _ found).trans (.cons comma inductionHypothesis)

namespace Condition

mutual

theorem Clause.isInner (clause : Clause) : ∀ token ∈ clause.tokens, token.IsInner := by
  cases clause with
  | alone operand =>
      rw [Clause.tokens]
      exact operand.isInner
  | joined operand link clause =>
      rw [Clause.tokens]
      exact List.forall_mem_append.mpr ⟨operand.isInner, List.forall_mem_cons.mpr
        ⟨Token.isInner_of_isSpelledBy link.spelled, clause.isInner⟩⟩

theorem Operand.isInner (operand : Operand) : ∀ token ∈ operand.tokens, token.IsInner := by
  cases operand with
  | enclosed clause =>
      rw [Operand.tokens, List.cons_append]
      have opening : Token.IsInner ⟨"("⟩ := ⟨by decide, by decide⟩
      have closing : Token.IsInner ⟨")"⟩ := ⟨by decide, by decide⟩
      exact List.forall_mem_cons.mpr ⟨opening, List.forall_mem_append.mpr
        ⟨clause.isInner, List.forall_mem_singleton.mpr closing⟩⟩
  | comparison leaf =>
      rw [Operand.tokens, Comparison.tokens]
      simp only [List.forall_mem_cons, List.not_mem_nil, false_implies, implies_true, and_true]
      exact ⟨Token.isInner_of_isWritten leaf.written rfl,
        Token.isInner_of_comparator leaf.spelled, Token.isInner_of_isValue leaf.allowed⟩

end

end Condition

namespace Reader

variable {First Second : Type}

theorem TakesInner.bind {reader : Reader First} {next : First → Reader Second}
    (first : TakesInner reader) (second : ∀ result, TakesInner (next result)) :
    TakesInner (reader >>= next) := by
  intro tokens result rest read
  obtain ⟨middle, between, taken, read⟩ := bind_eq_ok read
  exact (first _ _ _ taken).trans (second middle _ _ _ read)

theorem takesInner_pure (result : First) : TakesInner (pure result) := by
  intro tokens other rest read
  cases read
  exact .refl _

theorem takesInner_fail (error : SyntaxError) : TakesInner (fail error : Reader First) := by
  intro tokens other rest read
  cases read

theorem takesInner_ofExcept (outcome : Except Error First) :
    TakesInner (liftM outcome : Reader First) := by
  intro tokens result rest read
  cases outcome with
  | error error => cases read
  | ok found =>
      cases read
      exact .refl _

theorem takesInner_separated {item : Step First} (each : Step.TakesInner item) :
    TakesInner (ofStep (Step.separated item)) := by
  intro tokens results rest read
  obtain ⟨shorter, found⟩ := ofStep_eq_ok read
  exact (Step.lists_of_separated tokens results _ found).innerUpTo each

/-- A token that is checked as soon as it is taken. -/
theorem takesInner_next {part : Part} {check : Token → Reader First}
    (checks : ∀ token tokens result rest, check token tokens = .ok (result, rest) →
      token.IsInner) (after : ∀ token, TakesInner (check token)) :
    TakesInner (next part >>= check) := by
  intro tokens result rest read
  obtain ⟨token, between, taken, read⟩ := bind_eq_ok read
  cases tokens with
  | nil => cases taken
  | cons first others =>
      cases taken
      exact .cons (checks _ _ _ _ read) (after token _ _ _ read)

theorem takesInner_takeIf {test : Token → Bool} (passes : ∀ token, test token → token.IsInner) :
    TakesInner (takeIf test) := by
  intro tokens result rest read
  cases tokens with
  | nil =>
      cases read
      exact .refl _
  | cons token others =>
      rw [takeIf_cons] at read
      split at read
      · rename_i passed
        cases read
        exact .cons (passes token passed) (.refl _)
      · cases read
        exact .refl _

theorem takesInner_takeKeyword (word : Keyword) : TakesInner (takeKeyword word) :=
  takesInner_takeIf fun _ spelled => Token.isInner_of_isSpelledBy spelled

variable {spelling : String}

theorem takesInner_takeSymbol (inner : Token.IsInner ⟨spelling⟩) :
    TakesInner (takeSymbol spelling) := by
  exact takesInner_takeIf fun _ same => Token.isInner_of_spelling inner (by simpa using same)

theorem takesInner_keyword (word : Keyword) : TakesInner (keyword word) := by
  refine takesInner_next (fun token tokens result rest read => ?_) fun token => ?_
  · split at read
    · rename_i spelled
      exact Token.isInner_of_isSpelledBy spelled
    · cases read
  · split
    · exact takesInner_pure _
    · exact takesInner_fail _

theorem takesInner_symbol (inner : Token.IsInner ⟨spelling⟩) : TakesInner (symbol spelling) := by
  refine takesInner_next (fun token tokens result rest read => ?_) fun token => ?_
  · split at read
    · rename_i same
      exact Token.isInner_of_spelling inner same
    · cases read
  · split
    · exact takesInner_pure _
    · exact takesInner_fail _

/-- A token that has to pass for a name, a reference or a value. -/
theorem takesInner_item {part : Part} {item : Token → Except Error First}
    (each : ∀ token result, item token = .ok result → token.IsInner) :
    TakesInner (next part >>= fun token => liftM (item token)) := by
  refine takesInner_next (fun token tokens result rest read => ?_) fun token =>
    takesInner_ofExcept _
  cases found : item token with
  | error error =>
      rw [found] at read
      cases read
  | ok result => exact each token result found

theorem isInner_of_nameOfToken {part : Part} {token : Token} {name : String}
    (read : nameOfToken part token = .ok name) : token.IsInner := by
  unfold nameOfToken at read
  split at read
  · rename_i plain
    exact Token.isInner_of_isPlain plain
  · cases read

theorem isInner_of_ofToken {token : Token} {reference : Attribute}
    (read : Attribute.ofToken token = .ok reference) : token.IsInner := by
  obtain ⟨written, plain, rfl, -⟩ := Attribute.ofToken_eq_ok read
  exact Token.isInner_of_isWritten plain rfl

theorem takesInner_name (part : Part) : TakesInner (name part) :=
  takesInner_item fun _ _ read => isInner_of_nameOfToken read

theorem takesInner_reference : TakesInner reference :=
  takesInner_item fun _ _ read => isInner_of_ofToken read

theorem takesInner_columnStep : Step.TakesInner columnStep := by
  intro tokens column rest read
  obtain ⟨token, reference, taken, found, -⟩ := columnStep_eq_ok read
  exact ⟨[token], taken, List.forall_mem_singleton.mpr (isInner_of_ofToken found)⟩

theorem takesInner_valueStep : Step.TakesInner valueStep := by
  intro tokens literal rest read
  obtain ⟨token, taken, found⟩ := Step.single_eq_ok read
  have inner := Token.isInner_of_isValue (Literal.ofValue_eq_ok_iff.mp found).1
  exact ⟨[token], taken, List.forall_mem_singleton.mpr inner⟩

theorem takesInner_assignmentStep : Step.TakesInner assignmentStep := by
  intro tokens assignment rest read
  obtain ⟨sign, after, shorter, stillShorter, target, equals, given⟩ := assignmentStep_eq_ok read
  have signInner : sign.IsInner := Token.isInner_of_spelling (by decide) equals
  exact (takesInner_columnStep _ _ _ target).trans
    (.cons signInner (takesInner_valueStep _ _ _ given))

theorem takesInner_condition : TakesInner condition := by
  intro tokens result rest read
  obtain ⟨count, shorter, taken⟩ := Condition.read_eq_ok_iff.mp read
  obtain ⟨clause, spelled, -⟩ := Condition.derives_of_read.1 0 0 tokens (Nat.zero_le _) _ _ _ taken
  exact ⟨clause.tokens, spelled.symm, clause.isInner⟩

theorem takesInner_alteration : TakesInner alteration := by
  refine takesInner_next (fun token tokens result rest read => ?_) fun token => ?_
  · cases known : Keyword.ofText? token.spelling with
    | none =>
        simp only [known] at read
        cases read
    | some word => exact Token.isInner_of_isSpelledBy (Keyword.ofText?_eq_some_iff.mp known)
  · split
    · exact takesInner_pure _
    · exact takesInner_pure _
    · exact takesInner_fail _

/-- No part takes the semicolon at the end, whatever it reads. -/
theorem closed_takesInner : Closed fun _ reader _ => TakesInner reader where
  pure _ := takesInner_pure _
  fail cause := takesInner_fail cause
  bind first second := first.bind fun result => second [] result
  takeKeyword word := takesInner_takeKeyword word
  takeSymbol := List.forall_mem_cons.mpr ⟨takesInner_takeSymbol (by decide),
    List.forall_mem_singleton.mpr (takesInner_takeSymbol (by decide))⟩
  keyword word := takesInner_keyword word
  symbol := List.forall_mem_cons.mpr ⟨takesInner_symbol (by decide),
    List.forall_mem_singleton.mpr (takesInner_symbol (by decide))⟩
  name part := takesInner_name part
  reference := takesInner_reference
  alteration := takesInner_alteration
  columns := takesInner_separated takesInner_columnStep
  values := takesInner_separated takesInner_valueStep
  assignments := takesInner_separated takesInner_assignmentStep
  condition := takesInner_condition

end Reader

/-! ## Commands -/

/-- The tokens are those of one command, and the words are all but the semicolon at the end. -/
structure Token.AreCommand (tokens words : List Token) : Prop where
  ended : tokens = words ++ [⟨";"⟩]
  inner : ∀ word ∈ words, word.IsInner
  noPoint : ∀ first ∈ tokens.head?, first.characters.head? ≠ some '.'

/-- All literals of a command are closed, as none is its last token. -/
theorem Token.AreCommand.closed {text : List Char} {words : List Token}
    (command : AreCommand (scanFrom false (trim text)) words) : endsInside false text = false := by
  by_contra inside
  obtain ⟨others, body, cut⟩ := scanFrom_unclosed
    ((endsInside_trim text).trans (by simpa using inside))
  have last := List.append_inj_right' (cut.symm.trans command.ended) rfl
  simp [ofLiteral, quote, ← String.toList_inj] at last

/-- Whatever is read is one command. -/
theorem Statement.areCommand_of_parse {text : String} {statement : Statement}
    (read : parse text = .ok statement) : ∃ words, Token.AreCommand (Token.scan text) words := by
  obtain ⟨token, others, verb, scanned, known, body⟩ := parse_eq_ok read
  obtain ⟨words, rfl, inner⟩ := Reader.closed_takesInner.body verb _ _ _ body
  refine ⟨token :: words, scanned, ?_, ?_⟩
  · exact List.forall_mem_cons.mpr ⟨Token.isInner_of_ofText? known, inner⟩
  · rw [scanned]
    rintro verbToken ⟨⟩ point
    have plain : ∀ verb : Verb, '.' ∉ verb.spelling.toList := by
      intro verb
      cases verb <;> decide
    exact plain verb (mem_of_spells (Verb.ofText?_eq_some_iff.mp known)
      (List.mem_of_mem_head? point) (by decide))

theorem Statement.parse_congr {first second : String}
    (same : Token.scan first = Token.scan second) : parse first = parse second := by
  rw [parse, same, parse]

end TextTables
