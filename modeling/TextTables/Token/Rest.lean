import TextTables.Token

/-!
# Reading from the front of a list of tokens

A step reads a part that is not empty and returns what is left with the fact that it is
shorter, so that steps can be repeated until the tokens run out.
-/

namespace TextTables

/-- The tokens that are left behind a part of `tokens` that is not empty. -/
abbrev Rest (tokens : List Token) :=
  { rest : List Token // rest.length < tokens.length }

/-- What is left behind a further part is shorter still. -/
theorem Rest.lt_of_cons {tokens after rest : List Token} {token : Token}
    (shorter : (token :: after).length < tokens.length)
    (shorterStill : rest.length < after.length) :
    rest.length < tokens.length :=
  Nat.lt_trans shorterStill (Nat.lt_of_succ_lt shorter)

/-- Reads a part from the front of the tokens. -/
abbrev Step (α : Type) :=
  (tokens : List Token) → Except Error (α × Rest tokens)

namespace Step

/-- Reads one token. -/
def single {α : Type} (part : Part) (item : Token → Except Error α) : Step α
  | [] => .error (.badSyntax (.missing part))
  | token :: rest =>
      match item token with
      | .error error => .error error
      | .ok result => .ok (result, ⟨rest, by simp⟩)

/-- Reads one or more parts with commas between them. -/
def separated {α : Type} (item : Step α) (tokens : List Token) :
    Except Error (List α × Rest tokens) :=
  match item tokens with
  | .error error => .error error
  | .ok (first, ⟨[], shorter⟩) => .ok ([first], ⟨[], shorter⟩)
  | .ok (first, ⟨comma :: after, shorter⟩) =>
      if comma.spelling = "," then
        match separated item after with
        | .error error => .error error
        | .ok (others, ⟨rest, shorterStill⟩) =>
            .ok (first :: others, ⟨rest, Rest.lt_of_cons shorter shorterStill⟩)
      else .ok ([first], ⟨comma :: after, shorter⟩)
termination_by tokens.length
decreasing_by simp only [List.length_cons] at shorter; omega

end Step

end TextTables
