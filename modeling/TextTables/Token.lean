import TextTables.Literal
import TextTables.Text.Blank

/-!
# Tokens

A command is cut into tokens in two steps. Quotes alternate between opening and closing a
literal, and a literal is one token with whatever it holds. Outside the literals, punctuation
is set apart with spaces and the text is cut at blanks.
-/

namespace TextTables

open Text

/-- A piece of a command, as it was spelled. -/
structure Token where
  spelling : String
deriving DecidableEq

namespace Token

/-- The characters that are tokens of their own wherever they stand outside literals. -/
def isPunctuation (c : Char) : Bool :=
  c ∈ ['(', ')', ',', ';', '=', '>', '<']

/-- The characters that make one token with an equals sign right behind them. -/
def takesEquals (c : Char) : Bool :=
  c ∈ ['=', '>', '<', '!']

/-- Sets punctuation apart with spaces, so that cutting at blanks isolates it. -/
def setApart : List Char → List Char
  | [] => []
  | [c] => if isPunctuation c then [' ', c, ' '] else [c]
  | c :: next :: rest =>
      if takesEquals c && next == '=' then ' ' :: c :: next :: ' ' :: setApart rest
      else if isPunctuation c then ' ' :: c :: ' ' :: setApart (next :: rest)
      else c :: setApart (next :: rest)

/-- The tokens of a text without literals. -/
def ofPlain (text : List Char) : List Token :=
  (words (setApart text)).map fun word => ⟨String.ofList word⟩

/-- The token for a literal that holds the given text. -/
def ofLiteral (text : List Char) : Token :=
  ⟨String.ofList (quote :: text ++ [quote])⟩

/--
The tokens of the pieces between quotes, of which every second one stands inside a literal.
A last literal that is never closed counts as closed at the end.
-/
def ofPieces (inLiteral : Bool) : List (List Char) → List Token
  | [] => []
  | piece :: rest =>
      if inLiteral then ofLiteral piece :: ofPieces false rest
      else ofPlain piece ++ ofPieces true rest

/-- The tokens of a text. -/
def scan (text : String) : List Token :=
  ofPieces false ((trim text.toList).splitOn quote)

def isQuoted (token : Token) : Bool :=
  TextTables.isQuoted token.spelling

example : (scan "a>=-1 AND b LIKE'x  =y';").map spelling =
    ["a", ">=", "-1", "AND", "b", "LIKE", "'x  =y'", ";"] := by decide +kernel

end Token

end TextTables
