import TextTables.Condition
import TextTables.Name
import TextTables.Token.Rest

/-!
# Reading conditions

`condition ::= operand ((AND | OR) operand)*` and
`operand ::= "(" condition ")" | attribute comparator value`. The connectives have no
precedence and group to the right. The nesting of parentheses and the number of comparisons
are limited.
-/

namespace TextTables

namespace Condition

/-- Reads `attribute comparator value`. Of the attribute only the column counts. -/
def readComparison : Step Condition
  | [] => .error (.badSyntax (.missing .attributeName))
  | reference :: others =>
      match Attribute.ofToken reference, others with
      | .error error, _ => .error error
      | .ok _, [] => .error (.badSyntax (.missing .comparator))
      | .ok reference, sign :: others =>
          match Comparator.ofText? sign.spelling, others with
          | none, _ => .error (.badSyntax (.invalid .comparator sign.spelling))
          | some _, [] => .error (.badSyntax (.missing .value))
          | some comparator, value :: rest =>
              match Literal.ofValue value with
              | .error error => .error error
              | .ok literal =>
                  .ok (comparison reference.column comparator literal,
                    ⟨rest, by simp only [List.length_cons]; omega⟩)

mutual

/--
Reads a condition inside `depth` open parentheses, when `terms` comparisons have been read
before. Returns the number of comparisons read since the start of the whole condition.
-/
def readClause (depth terms : Nat) (tokens : List Token) :
    Except Error (Condition × Nat × Rest tokens) :=
  match readOperand depth terms tokens with
  | .error error => .error error
  | .ok (left, terms, ⟨[], shorter⟩) => .ok (left, terms, ⟨[], shorter⟩)
  | .ok (left, terms, ⟨word :: after, shorter⟩) =>
      match Connective.ofText? word.spelling with
      | none => .ok (left, terms, ⟨word :: after, shorter⟩)
      | some connective =>
          match readClause depth terms after with
          | .error error => .error error
          | .ok (right, terms, ⟨rest, shorterStill⟩) =>
              .ok (combine connective left right, terms,
                ⟨rest, Rest.lt_of_cons shorter shorterStill⟩)
termination_by 2 * tokens.length + 1
decreasing_by
  · omega
  · simp only [List.length_cons] at shorter; omega

def readOperand (depth terms : Nat) (tokens : List Token) :
    Except Error (Condition × Nat × Rest tokens) :=
  match tokens with
  | ⟨"("⟩ :: inner =>
      if maxConditionDepth ≤ depth then .error (.badSyntax .tooDeep)
      else
        match readClause (depth + 1) terms inner with
        | .error error => .error error
        | .ok (_, _, ⟨[], _⟩) => .error (.badSyntax (.missing (.symbol ")")))
        | .ok (condition, terms, ⟨closing :: rest, shorter⟩) =>
            if closing.spelling = ")" then
              .ok (condition, terms, ⟨rest, by simp only [List.length_cons] at *; omega⟩)
            else .error (.badSyntax (.unexpected (.symbol ")") closing.spelling))
  | tokens =>
      if maxConditionTerms ≤ terms then .error (.badSyntax .tooManyTerms)
      else
        match readComparison tokens with
        | .error error => .error error
        | .ok (leaf, rest) => .ok (leaf, terms + 1, rest)
termination_by 2 * tokens.length
decreasing_by simp only [List.length_cons]; omega

end

/-- Reads a whole condition. -/
def read (tokens : List Token) : Except Error (Condition × List Token) :=
  match readClause 0 0 tokens with
  | .error error => .error error
  | .ok (condition, _, rest) => .ok (condition, rest.val)

end Condition

end TextTables
