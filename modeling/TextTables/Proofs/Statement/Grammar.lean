import TextTables.Proofs.Statement.Rereading

/-!
# The grammar of conditions

`condition ::= operand ((AND | OR) operand)*` and
`operand ::= "(" condition ")" | attribute comparator value`, as trees that carry the spelling of
every word. A tree determines its tokens, its condition, its comparisons from left to right and how
deep its parentheses stand in one another. The reader accepts exactly the tokens of the trees within
the limits, and no two trees have the same tokens.
-/

namespace TextTables

open Text

/-- A symbol is spelled in one way, and `LIKE` in any letter case. -/
def Comparator.IsSpelledBy : Comparator → String → Prop
  | like, sign => Keyword.like.isSpelledBy sign
  | comparator, sign => sign = comparator.spelling

theorem Comparator.ofText?_eq_some_iff {sign : String} {comparator : Comparator} :
    ofText? sign = some comparator ↔ comparator.IsSpelledBy sign := by
  constructor
  · intro read
    unfold ofText? at read
    split_ifs at read <;> cases read <;> assumption
  · intro spelled
    cases comparator with
    | like =>
        have like : Keyword.like.isSpelledBy sign := spelled
        unfold ofText?
        split_ifs <;> first | rfl | (subst sign; exact absurd like (by decide +kernel))
    | _ =>
        cases spelled
        exact ofText?_spelling _

instance (comparator : Comparator) (sign : String) : Decidable (comparator.IsSpelledBy sign) :=
  decidable_of_iff _ Comparator.ofText?_eq_some_iff

theorem Connective.ofText?_eq_some_iff {word : String} {connective : Connective} :
    ofText? word = some connective ↔ connective.keyword.isSpelledBy word := by
  rw [← Keyword.ofText?_eq_some_iff, ofText?]
  split
  · rename_i found
    rw [found]
    cases connective <;> decide
  · rename_i found
    rw [found]
    cases connective <;> decide
  · rename_i noAnd noOr
    cases connective
    · simpa [keyword] using noAnd
    · simpa [keyword] using noOr

/-- A value is its spelling with the kind that the spelling has. -/
theorem Literal.ofValue_eq_ok_iff {token : Token} {literal : Literal} :
    ofValue token = .ok literal ↔
      isValue token.spelling ∧ literal = ⟨token.spelling, Kind.of token.spelling⟩ := by
  constructor
  · intro read
    unfold ofValue at read
    split at read
    · rename_i allowed
      obtain ⟨kind, spelling⟩ := kind_eq_of_ofToken read
      exact ⟨allowed, by rw [← kind, ← spelling]⟩
    · cases read
  · rintro ⟨allowed, rfl⟩
    rw [ofValue, if_pos allowed, ofToken]
    cases kind : Kind.of token.spelling with
    | string =>
        simp only [isValue, kind, isStringLiteral, bne_self_eq_false, Bool.false_or,
          Bool.and_eq_true] at allowed
        simp [unquote, allowed.1, Except.map]
    | _ => rfl

namespace Attribute

/-- Only the spellings of references are read. -/
theorem ofToken_eq_ok {token : Token} {named : Attribute} (read : ofToken token = .ok named) :
    ∃ reference : Attribute, reference.IsWritten ∧ token = ⟨reference.spelling⟩ ∧
      named = ⟨reference.table.map lowercase, reference.column⟩ := by
  have joined : ['.'].intercalate (token.spelling.toList.splitOn '.') = token.spelling.toList :=
    List.intercalate_splitOn '.'
  unfold ofToken at read
  split at read
  · rename_i column whole
    split at read
    · rename_i plain
      cases read
      have same : column = token.spelling.toList := by simpa [whole] using joined
      exact ⟨⟨none, token.spelling⟩, ⟨nofun, same ▸ plain⟩, rfl, rfl⟩
    · cases read
  · rename_i table column parts
    split at read
    · rename_i plain
      cases read
      obtain ⟨tablePlain, columnPlain⟩ := (Bool.and_eq_true _ _).mp plain
      refine ⟨⟨some (String.ofList table), String.ofList column⟩, ⟨?_, by simpa⟩, ?_, rfl⟩
      · rintro name ⟨⟩
        simpa using tablePlain
      · obtain ⟨text⟩ := token
        have whole : table ++ '.' :: column = text.toList := by
          simpa [parts, List.intercalate_cons_cons] using joined
        simp only [spelling, Token.mk.injEq]
        apply String.toList_injective
        simp [← whole]
    · cases read
  · cases read

/-- A reference is determined by its spelling. -/
theorem IsWritten.eq_of_spelling {first second : Attribute} (written : first.IsWritten)
    (alsoWritten : second.IsWritten) (same : first.spelling = second.spelling) :
    first = second := by
  have parts := written.splitOn_spelling
  rw [same, alsoWritten.splitOn_spelling, List.map_inj_right (fun _ _ => String.toList_injective)]
    at parts
  obtain ⟨_ | firstTable, firstColumn⟩ := first
  all_goals obtain ⟨_ | secondTable, secondColumn⟩ := second <;> simp_all

end Attribute

namespace Condition

/-- A comparison as it is written. -/
@[ext]
structure Comparison where
  reference : Attribute
  comparator : Comparator
  sign : String
  value : String
  written : reference.IsWritten
  spelled : comparator.IsSpelledBy sign
  allowed : isValue value

namespace Comparison

def tokens (comparison : Comparison) : List Token :=
  [⟨comparison.reference.spelling⟩, ⟨comparison.sign⟩, ⟨comparison.value⟩]

/-- Of the reference only the column counts. -/
def condition (comparison : Comparison) : Condition :=
  .comparison comparison.reference.column comparison.comparator
    ⟨comparison.value, Kind.of comparison.value⟩

end Comparison

/-- A connective as it is written. -/
@[ext]
structure Link where
  connective : Connective
  word : String
  spelled : connective.keyword.isSpelledBy word

def Link.token (link : Link) : Token :=
  ⟨link.word⟩

mutual

/-- The chain of operands: one of them, or one that is linked to a further chain. -/
inductive Clause where
  | alone (operand : Operand)
  | joined (operand : Operand) (link : Link) (clause : Clause)

inductive Operand where
  | enclosed (clause : Clause)
  | comparison (leaf : Comparison)

end

mutual

def Clause.tokens : Clause → List Token
  | .alone operand => operand.tokens
  | .joined operand link clause => operand.tokens ++ link.token :: clause.tokens

def Operand.tokens : Operand → List Token
  | .enclosed clause => ⟨"("⟩ :: clause.tokens ++ [⟨")"⟩]
  | .comparison leaf => leaf.tokens

end

mutual

/-- The condition of a chain: every connective joins its operand to all that follows. -/
def Clause.condition : Clause → Condition
  | .alone operand => operand.condition
  | .joined operand link clause => combine link.connective operand.condition clause.condition

def Operand.condition : Operand → Condition
  | .enclosed clause => clause.condition
  | .comparison leaf => leaf.condition

end

mutual

/-- The comparisons from left to right, inside and outside of parentheses. -/
def Clause.comparisons : Clause → List Comparison
  | .alone operand => operand.comparisons
  | .joined operand _ clause => operand.comparisons ++ clause.comparisons

def Operand.comparisons : Operand → List Comparison
  | .enclosed clause => clause.comparisons
  | .comparison leaf => [leaf]

end

mutual

/-- The greatest number of parentheses that are open at once. -/
def Clause.nesting : Clause → Nat
  | .alone operand => operand.nesting
  | .joined operand _ clause => max operand.nesting clause.nesting

def Operand.nesting : Operand → Nat
  | .enclosed clause => clause.nesting + 1
  | .comparison _ => 0

end

namespace Clause

/-- The operand in front of the chain. -/
def first : Clause → Operand
  | .alone operand => operand
  | .joined operand _ _ => operand

/-- The operands behind the first one, each with the connective in front of it. -/
def further : Clause → List (Connective × Operand)
  | .alone _ => []
  | .joined _ link clause => (link.connective, clause.first) :: clause.further

end Clause

/-- The conditions joined by the connectives between them, grouped to the right. -/
def chain (first : Condition) : List (Connective × Condition) → Condition
  | [] => first
  | (connective, second) :: others => combine connective first (chain second others)

/-- The comparisons of the condition from left to right. -/
def leaves : Condition → List Condition
  | comparison column comparator literal => [comparison column comparator literal]
  | combine _ left right => left.leaves ++ right.leaves

theorem Clause.condition_eq_chain (clause : Clause) :
    clause.condition = chain clause.first.condition
      (clause.further.map fun (connective, operand) => (connective, operand.condition)) := by
  match clause with
  | .alone operand => rfl
  | .joined operand link clause =>
      simp only [Clause.condition, clause.condition_eq_chain]
      rfl

mutual

theorem Clause.leaves_condition (clause : Clause) :
    clause.condition.leaves = clause.comparisons.map Comparison.condition := by
  cases clause with
  | alone operand =>
      simp only [Clause.condition, Clause.comparisons, operand.leaves_condition]
  | joined operand link clause =>
      simp only [Clause.condition, Clause.comparisons, leaves, List.map_append,
        operand.leaves_condition, clause.leaves_condition]

theorem Operand.leaves_condition (operand : Operand) :
    operand.condition.leaves = operand.comparisons.map Comparison.condition := by
  cases operand with
  | enclosed clause =>
      simp only [Operand.condition, Operand.comparisons, clause.leaves_condition]
  | comparison leaf =>
      simp only [Operand.condition, Operand.comparisons, Comparison.condition, leaves,
        List.map_cons, List.map_nil]

end

/-- The reader does not take the token for a connective. -/
def EndsClause (rest : List Token) : Prop :=
  ∀ token ∈ rest.head?, Connective.ofText? token.spelling = none

theorem endsClause_closing (rest : List Token) : EndsClause (⟨")"⟩ :: rest) := by
  rintro token ⟨⟩
  decide +kernel

theorem endsClause_semicolon : EndsClause [⟨";"⟩] := by
  rintro token ⟨⟩
  decide +kernel

mutual

/-- The induction is on the tree. -/
theorem Clause.reads (clause : Clause) {depth terms : Nat} {rest : List Token}
    (shallow : depth + clause.nesting ≤ maxConditionDepth)
    (few : terms + clause.comparisons.length ≤ maxConditionTerms) (ends : EndsClause rest) :
    ReadsClause depth terms (clause.tokens ++ rest) clause.condition
      (terms + clause.comparisons.length) rest := by
  cases clause with
  | alone operand =>
      simp only [Clause.nesting] at shallow
      simp only [Clause.comparisons] at few
      simpa only [Clause.tokens, Clause.condition, Clause.comparisons] using
        readsClause_of_readsOperand (operand.reads shallow few) ends
  | joined operand link clause =>
      simp only [Clause.nesting] at shallow
      simp only [Clause.comparisons, List.length_append] at few
      have operandShallow : depth + operand.nesting ≤ maxConditionDepth := by omega
      have clauseShallow : depth + clause.nesting ≤ maxConditionDepth := by omega
      have operandFew : terms + operand.comparisons.length ≤ maxConditionTerms := by omega
      have clauseFew : terms + operand.comparisons.length + clause.comparisons.length ≤
        maxConditionTerms := by omega
      have joins : Connective.ofText? link.token.spelling = some link.connective :=
        Connective.ofText?_eq_some_iff.mpr link.spelled
      have both := readsClause_combine joins
        (operand.reads operandShallow operandFew) (clause.reads clauseShallow clauseFew ends)
      simpa only [Clause.tokens, Clause.condition, Clause.comparisons, List.length_append,
        List.append_assoc, List.cons_append, Nat.add_assoc] using both

theorem Operand.reads (operand : Operand) {depth terms : Nat} {rest : List Token}
    (shallow : depth + operand.nesting ≤ maxConditionDepth)
    (few : terms + operand.comparisons.length ≤ maxConditionTerms) :
    ReadsOperand depth terms (operand.tokens ++ rest) operand.condition
      (terms + operand.comparisons.length) rest := by
  cases operand with
  | enclosed clause =>
      simp only [Operand.nesting] at shallow
      simp only [Operand.comparisons] at few
      have outside : depth < maxConditionDepth := by omega
      have inside : depth + 1 + clause.nesting ≤ maxConditionDepth := by omega
      have whole := readsOperand_enclosed outside
        (clause.reads inside few (endsClause_closing rest))
      simpa only [Operand.tokens, Operand.condition, Operand.comparisons, List.cons_append,
        List.append_assoc, List.nil_append] using whole
  | comparison leaf =>
      simp only [Operand.comparisons, List.length_singleton] at few
      simp only [Operand.tokens, Operand.condition, Operand.comparisons]
      exact readsOperand_comparison (Nat.lt_of_succ_le few)
        (Attribute.ofToken_spelling leaf.written)
        (Comparator.ofText?_eq_some_iff.mpr leaf.spelled)
        (Literal.ofValue_eq_ok_iff.mpr ⟨leaf.allowed, rfl⟩)

end

/-- Of a comparison that is read, its three tokens are read one by one. -/
theorem readComparison_eq_ok {tokens : List Token} {condition : Condition} {rest : Rest tokens}
    (read : readComparison tokens = .ok (condition, rest)) :
    ∃ leaf : Comparison, leaf.tokens ++ rest.val = tokens ∧ leaf.condition = condition := by
  cases tokens with
  | nil => cases read
  | cons reference others =>
      cases names : Attribute.ofToken reference with
      | error error =>
          simp only [readComparison, names] at read
          cases read
      | ok named =>
          cases others with
          | nil =>
              simp only [readComparison, names] at read
              cases read
          | cons sign others =>
              simp only [readComparison, names] at read
              cases compares : Comparator.ofText? sign.spelling with
              | none =>
                  simp only [compares] at read
                  cases read
              | some comparator =>
                  cases others with
                  | nil =>
                      simp only [compares] at read
                      cases read
                  | cons value rest =>
                      simp only [compares] at read
                      split at read
                      · cases read
                      · rename_i gives
                        cases read
                        obtain ⟨spelled, written, rfl, rfl⟩ := Attribute.ofToken_eq_ok names
                        obtain ⟨allowed, rfl⟩ := Literal.ofValue_eq_ok_iff.mp gives
                        have signed := Comparator.ofText?_eq_some_iff.mp compares
                        exact ⟨⟨spelled, comparator, _, _, written, signed, allowed⟩, rfl, rfl⟩

/-- Inside `depth` parentheses and behind `terms` comparisons, what a tree derives from the front of
the tokens keeps the limits, and `count` is the number of comparisons with it. -/
structure Within (depth terms nesting comparisons count : Nat) : Prop where
  shallow : depth + nesting ≤ maxConditionDepth
  counted : count = terms + comparisons
  few : count ≤ maxConditionTerms

def DerivesClause (depth terms : Nat) (tokens : List Token) (condition : Condition) (count : Nat)
    (rest : List Token) : Prop :=
  ∃ clause : Clause, clause.tokens ++ rest = tokens ∧ clause.condition = condition ∧
    Within depth terms clause.nesting clause.comparisons.length count

def DerivesOperand (depth terms : Nat) (tokens : List Token) (condition : Condition) (count : Nat)
    (rest : List Token) : Prop :=
  ∃ operand : Operand, operand.tokens ++ rest = tokens ∧ operand.condition = condition ∧
    Within depth terms operand.nesting operand.comparisons.length count

section

variable {depth terms count total : Nat} {tokens after rest : List Token}
  {condition left right : Condition}

theorem DerivesOperand.clause (operand : DerivesOperand depth terms tokens condition count rest) :
    DerivesClause depth terms tokens condition count rest := by
  obtain ⟨operand, spelled, means, within⟩ := operand
  exact ⟨.alone operand, by rwa [Clause.tokens], by rwa [Clause.condition],
    by rwa [Clause.nesting, Clause.comparisons]⟩

theorem DerivesOperand.joined {connective : Connective} {word : Token}
    (joins : Connective.ofText? word.spelling = some connective)
    (operand : DerivesOperand depth terms tokens left count (word :: after))
    (clause : DerivesClause depth count after right total rest) :
    DerivesClause depth terms tokens (combine connective left right) total rest := by
  obtain ⟨operand, rfl, rfl, shallow, counted, few⟩ := operand
  obtain ⟨clause, rfl, rfl, shallowStill, countedStill, fewStill⟩ := clause
  let link : Link := ⟨connective, word.spelling, Connective.ofText?_eq_some_iff.mp joins⟩
  refine ⟨.joined operand link clause, ?_, rfl, ?_, ?_, fewStill⟩
  · simp only [Clause.tokens, List.append_assoc, List.cons_append]
    rfl
  · simp only [Clause.nesting]
    omega
  · simp only [Clause.comparisons, List.length_append]
    omega

theorem DerivesClause.enclosed
    (clause : DerivesClause (depth + 1) terms tokens condition count (⟨")"⟩ :: rest)) :
    DerivesOperand depth terms (⟨"("⟩ :: tokens) condition count rest := by
  obtain ⟨clause, rfl, rfl, shallow, counted, few⟩ := clause
  refine ⟨.enclosed clause, ?_, by rw [Operand.condition], ?_, by rwa [Operand.comparisons], few⟩
  · simp only [Operand.tokens, List.cons_append, List.append_assoc, List.nil_append]
  · simp only [Operand.nesting]
    omega

theorem derivesOperand_comparison {rest : Rest tokens} (bound : depth ≤ maxConditionDepth)
    (few : ¬ maxConditionTerms ≤ terms) (read : readComparison tokens = .ok (condition, rest)) :
    DerivesOperand depth terms tokens condition (terms + 1) rest.val := by
  obtain ⟨leaf, spelled, means⟩ := readComparison_eq_ok read
  refine ⟨.comparison leaf, by rwa [Operand.tokens], by rwa [Operand.condition], ?_⟩
  rw [Operand.nesting, Operand.comparisons]
  exact ⟨bound, rfl, Nat.not_le.mp few⟩

end

/-- Whatever is read is derived by a tree, however clauses and operands are nested. -/
theorem derives_of_read :
    (∀ depth terms tokens, depth ≤ maxConditionDepth → ∀ condition count rest,
      readClause depth terms tokens = .ok (condition, count, rest) →
        DerivesClause depth terms tokens condition count rest.val) ∧
    ∀ depth terms tokens, depth ≤ maxConditionDepth → ∀ condition count rest,
      readOperand depth terms tokens = .ok (condition, count, rest) →
        DerivesOperand depth terms tokens condition count rest.val := by
  refine readClause.mutual_induct
    (fun depth terms tokens => depth ≤ maxConditionDepth → ∀ condition count rest,
      readClause depth terms tokens = .ok (condition, count, rest) →
        DerivesClause depth terms tokens condition count rest.val)
    (fun depth terms tokens => depth ≤ maxConditionDepth → ∀ condition count rest,
      readOperand depth terms tokens = .ok (condition, count, rest) →
        DerivesOperand depth terms tokens condition count rest.val)
    ?_ ?_ ?_ ?_ ?_ ?_ ?_ ?_ ?_ ?_ ?_ ?_ ?_
  -- A clause: its first operand, alone or joined to another clause.
  · intro depth terms tokens error failed _ _ condition count rest read
    rw [readClause, failed] at read
    cases read
  · intro depth terms tokens left counted shorter found operand bound condition count rest read
    rw [readClause, found] at read
    cases read
    exact (operand bound _ _ _ found).clause
  · intro depth terms tokens left counted word after shorter found alone operand bound condition
      count rest read
    rw [readClause, found] at read
    simp only [alone] at read
    cases read
    exact (operand bound _ _ _ found).clause
  · intro depth terms tokens left counted word after shorter found connective joins error failed
      _ _ _ condition count rest read
    rw [readClause, found] at read
    simp only [joins, failed] at read
    cases read
  · intro depth terms tokens left counted word after shorter found connective joins right further
      others stillShorter continued operand clause bound condition count rest read
    rw [readClause, found] at read
    simp only [joins, continued] at read
    cases read
    exact (operand bound _ _ _ found).joined joins (clause bound _ _ _ continued)
  -- An operand: a clause in parentheses, or a comparison.
  · intro depth terms inner deep bound condition count rest read
    rw [readOperand, if_pos deep] at read
    cases read
  · intro depth terms inner shallow error failed _ bound condition count rest read
    rw [readOperand, if_neg shallow, failed] at read
    cases read
  · intro depth terms inner shallow left counted shorter found _ bound condition count rest read
    rw [readOperand, if_neg shallow, found] at read
    cases read
  · intro depth terms inner shallow left counted word after shorter found closes clause bound
      condition count rest read
    rw [readOperand, if_neg shallow, found] at read
    simp only [closes, if_true] at read
    cases read
    obtain ⟨spelling⟩ := word
    cases closes
    exact (clause (Nat.not_le.mp shallow) _ _ _ found).enclosed
  · intro depth terms inner shallow left counted word after shorter found opened _ bound condition
      count rest read
    rw [readOperand, if_neg shallow, found] at read
    simp only [opened, if_false] at read
    cases read
  · intro depth terms tokens other many bound condition count rest read
    rw [readOperand.eq_2 _ _ _ other, if_pos many] at read
    cases read
  · intro depth terms tokens other few error failed bound condition count rest read
    rw [readOperand.eq_2 _ _ _ other, if_neg few, failed] at read
    cases read
  · intro depth terms tokens other few leaf left found bound condition count rest read
    rw [readOperand.eq_2 _ _ _ other, if_neg few, found] at read
    cases read
    exact derivesOperand_comparison bound few found

theorem Link.ofText?_token (link : Link) :
    Connective.ofText? link.token.spelling = some link.connective :=
  Connective.ofText?_eq_some_iff.mpr link.spelled

theorem Link.eq_of_token {first second : Link} (same : first.token = second.token) :
    first = second := by
  have words : first.word = second.word := congrArg Token.spelling same
  have connectives := first.ofText?_token
  rw [same, second.ofText?_token] at connectives
  exact Link.ext (Option.some.inj connectives).symm words

theorem Comparison.eq_of_tokens {first second : Comparison} {rest others : List Token}
    (same : first.tokens ++ rest = second.tokens ++ others) :
    first = second ∧ rest = others := by
  simp only [tokens, List.cons_append, List.nil_append, List.cons.injEq, Token.mk.injEq] at same
  obtain ⟨references, signs, values, rests⟩ := same
  have comparators := Comparator.ofText?_eq_some_iff.mpr first.spelled
  rw [signs, Comparator.ofText?_eq_some_iff.mpr second.spelled] at comparators
  have named := first.written.eq_of_spelling second.written references
  exact ⟨Comparison.ext named (Option.some.inj comparators).symm signs values, rests⟩

/-- A comparison starts with a reference, which no parenthesis is. -/
theorem Comparison.head_ne_opening (leaf : Comparison) (rest others : List Token) :
    leaf.tokens ++ rest ≠ ⟨"("⟩ :: others := by
  intro same
  have opening : leaf.reference.spelling = "(" :=
    congrArg Token.spelling (List.cons.inj same).1
  have read := Attribute.ofToken_spelling leaf.written
  rw [opening] at read
  exact absurd read (by simp [Attribute.ofToken, List.splitOn_eq_singleton, isPlain])

mutual

/-- The tokens tell where a chain ends, if no connective follows it, and which tree it has. -/
theorem Clause.eq_of_tokens (first second : Clause) {rest others : List Token}
    (ends : EndsClause rest) (alsoEnds : EndsClause others)
    (same : first.tokens ++ rest = second.tokens ++ others) : first = second ∧ rest = others := by
  -- A link where the other chain has ended would be a connective behind that chain.
  have notLinked : ∀ {rest : List Token} (link : Link) (tokens : List Token),
      EndsClause rest → rest ≠ link.token :: tokens := by
    rintro rest link tokens ends rfl
    have none := ends link.token rfl
    rw [link.ofText?_token] at none
    cases none
  cases first with
  | alone operand =>
      cases second with
      | alone other =>
          simp only [Clause.tokens] at same
          obtain ⟨rfl, rests⟩ := operand.eq_of_tokens other same
          exact ⟨rfl, rests⟩
      | joined other link clause =>
          simp only [Clause.tokens, List.append_assoc, List.cons_append] at same
          exact absurd (operand.eq_of_tokens other same).2 (notLinked link _ ends)
  | joined operand link clause =>
      cases second with
      | alone other =>
          simp only [Clause.tokens, List.append_assoc, List.cons_append] at same
          exact absurd (operand.eq_of_tokens other same).2.symm (notLinked link _ alsoEnds)
      | joined other otherLink otherClause =>
          simp only [Clause.tokens, List.append_assoc, List.cons_append] at same
          obtain ⟨rfl, later⟩ := operand.eq_of_tokens other same
          obtain ⟨links, clauses⟩ := List.cons.inj later
          obtain ⟨rfl, rests⟩ := clause.eq_of_tokens otherClause ends alsoEnds clauses
          exact ⟨by rw [Link.eq_of_token links], rests⟩

theorem Operand.eq_of_tokens (first second : Operand) {rest others : List Token}
    (same : first.tokens ++ rest = second.tokens ++ others) : first = second ∧ rest = others := by
  cases first with
  | enclosed clause =>
      cases second with
      | enclosed other =>
          simp only [Operand.tokens, List.cons_append, List.append_assoc, List.nil_append,
            List.cons.injEq, true_and] at same
          obtain ⟨rfl, closings⟩ := clause.eq_of_tokens other (endsClause_closing _)
            (endsClause_closing _) same
          exact ⟨rfl, (List.cons.inj closings).2⟩
      | comparison leaf =>
          simp only [Operand.tokens, List.cons_append] at same
          exact absurd same.symm (leaf.head_ne_opening _ _)
  | comparison leaf =>
      cases second with
      | enclosed other =>
          simp only [Operand.tokens, List.cons_append] at same
          exact absurd same (leaf.head_ne_opening _ _)
      | comparison other =>
          simp only [Operand.tokens] at same
          obtain ⟨rfl, rests⟩ := Comparison.eq_of_tokens same
          exact ⟨rfl, rests⟩

end

end Condition

end TextTables
