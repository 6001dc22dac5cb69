import TextTables.Text.Lowercase
import TextTables.Token

/-!
# Names in commands

Databases, tables and columns are named by letters and digits of ASCII. A column can be
qualified by its table, with a point between the two.
-/

namespace TextTables

open Text

/-- At least one character, and only letters and digits of ASCII. -/
def isPlain (text : List Char) : Bool :=
  !text.isEmpty && text.all Char.isAlphanum

theorem isPlain_iff {text : List Char} :
    isPlain text ↔ text ≠ [] ∧ ∀ c ∈ text, c.isAlphanum := by
  simp [isPlain]

/-- The name of a database or table, in lower case. -/
def nameOfToken (part : Part) (token : Token) : Except Error String :=
  if isPlain token.spelling.toList then .ok (lowercase token.spelling)
  else .error (.badSyntax (.invalid part token.spelling))

/-- A column, possibly of a named table. -/
structure Attribute where
  table : Option String
  column : String
deriving DecidableEq

/-- Reads `column` or `table.column`. Only the name of the table goes to lower case. -/
def Attribute.ofToken (token : Token) : Except Error Attribute :=
  match token.spelling.toList.splitOn '.' with
  | [column] =>
      if isPlain column then .ok ⟨none, token.spelling⟩
      else .error (.badSyntax (.invalid .attributeName token.spelling))
  | [table, column] =>
      if isPlain table && isPlain column then
        .ok ⟨some (lowercase (String.ofList table)), String.ofList column⟩
      else .error (.badSyntax (.invalid .attributeName token.spelling))
  | _ => .error (.badSyntax (.invalid .attributeName token.spelling))

/-- The characters besides letters, digits and the space that a string literal can hold. -/
def literalSymbols : List Char :=
  "!#$%&()*+,-./:;>=<?@[\\]^_`\x7b\x7d~".toList

def isLiteralChar (c : Char) : Bool :=
  c == ' ' || c.isAlphanum || c ∈ literalSymbols

/-- A string literal as a command can hold it. -/
def isStringLiteral (text : String) : Bool :=
  isQuoted text && ((text.toList.drop 1).dropLast).all isLiteralChar

/-- A literal as a command can hold it. -/
def isValue (text : String) : Bool :=
  Kind.of text != .string || isStringLiteral text

def Literal.ofValue (token : Token) : Except Error Literal :=
  if isValue token.spelling then Literal.ofToken token.spelling
  else .error (.badSyntax (.invalid .value token.spelling))

end TextTables
