import TextTables.Statement
import TextTables.Condition.Reader

/-!
# Reading statements

A reader takes tokens from the front of a command and leaves the rest. The statement is read
in one pass: the verb decides the form, and a semicolon ends it.
-/

namespace TextTables

abbrev Reader := StateT (List Token) (Except Error)

namespace Reader

def fail {α : Type} (error : SyntaxError) : Reader α :=
  throw (.badSyntax error)

/-- Takes the next token, whatever it is. -/
def next (part : Part) : Reader Token := do
  match ← get with
  | [] => fail (.missing part)
  | token :: rest =>
      set rest
      return token

/-- Takes the next token if it passes the test. -/
def takeIf (test : Token → Bool) : Reader Bool := do
  match ← get with
  | [] => return false
  | token :: rest =>
      if test token then
        set rest
        return true
      else return false

def takeKeyword (word : Keyword) : Reader Bool :=
  takeIf fun token => word.isSpelledBy token.spelling

def takeSymbol (spelling : String) : Reader Bool :=
  takeIf fun token => token.spelling = spelling

def keyword (word : Keyword) : Reader Unit := do
  let token ← next (.keyword word)
  unless word.isSpelledBy token.spelling do
    fail (.unexpected (.keyword word) token.spelling)

def symbol (spelling : String) : Reader Unit := do
  let token ← next (.symbol spelling)
  unless token.spelling = spelling do
    fail (.unexpected (.symbol spelling) token.spelling)

def name (part : Part) : Reader String := do
  nameOfToken part (← next part)

def databaseName : Reader String := name .databaseName

def tableName : Reader String := name .tableName

def reference : Reader Attribute := do
  Attribute.ofToken (← next .attributeName)

/-- Takes what the step reads. -/
def ofStep {α : Type} (step : Step α) : Reader α := fun tokens =>
  match step tokens with
  | .error error => .error error
  | .ok (result, rest) => .ok (result, rest.val)

/-- A column, whose table does not count even if it is named. -/
def columnStep : Step String :=
  Step.single .attributeName fun token => (Attribute.ofToken token).map Attribute.column

def valueStep : Step Literal :=
  Step.single .value Literal.ofValue

def columns : Reader (List String) := ofStep (Step.separated columnStep)

def values : Reader (List Literal) := ofStep (Step.separated valueStep)

/-- Reads `column = value`. -/
def assignmentStep : Step (String × Literal) := fun tokens =>
  match columnStep tokens with
  | .error error => .error error
  | .ok (_, ⟨[], _⟩) => .error (.badSyntax (.missing (.symbol "=")))
  | .ok (target, ⟨sign :: after, shorter⟩) =>
      if sign.spelling = "=" then
        match valueStep after with
        | .error error => .error error
        | .ok (given, ⟨rest, shorterStill⟩) =>
            .ok ((target, given), ⟨rest, Rest.lt_of_cons shorter shorterStill⟩)
      else .error (.badSyntax (.unexpected (.symbol "=") sign.spelling))

def assignments : Reader (List (String × Literal)) := ofStep (Step.separated assignmentStep)

def condition : Reader Condition := Condition.read

def create : Reader Statement := do
  if ← takeKeyword .database then
    return .createDatabase (← databaseName)
  if ← takeKeyword .table then
    let table ← tableName
    if ← takeSymbol "(" then
      let names ← columns
      symbol ")"
      return .createTable table names
    return .createTable table []
  fail .createWithoutKind

def drop : Reader Statement := do
  if ← takeKeyword .database then
    return .dropDatabase (← databaseName)
  if ← takeKeyword .table then
    return .dropTable (← tableName)
  fail .dropWithoutKind

def alteration : Reader Alteration := do
  let token ← next .alteration
  match Keyword.ofText? token.spelling with
  | some .add => return .add
  | some .drop => return .drop
  | _ => fail (.invalid .alteration token.spelling)

def alter : Reader Statement := do
  keyword .table
  let table ← tableName
  let change ← alteration
  return .alter table change (← reference).column

def insert : Reader Statement := do
  keyword .into
  let table ← tableName
  keyword .values
  symbol "("
  let row ← values
  symbol ")"
  return .insert table row

def selection : Reader Selection := do
  if ← takeSymbol "*" then return .all
  return .only (← columns)

def select : Reader Statement := do
  let chosen ← selection
  keyword .from
  let table ← tableName
  if ← takeKeyword .where then
    return .select chosen table (some (← condition))
  return .select chosen table none

def update : Reader Statement := do
  let table ← tableName
  keyword .set
  let changes ← assignments
  keyword .where
  return .update table changes (← condition)

def delete : Reader Statement := do
  keyword .from
  let table ← tableName
  keyword .where
  return .delete table (← condition)

def join : Reader Statement := do
  let first ← tableName
  keyword .and
  let second ← tableName
  keyword .on
  let firstAttribute ← reference
  keyword .and
  let secondAttribute ← reference
  return .join first second firstAttribute secondAttribute

/-- What follows the verb, up to the end of the statement. -/
def body : Verb → Reader Statement
  | .use => return .use (← databaseName)
  | .create => create
  | .drop => drop
  | .alter => alter
  | .insert => insert
  | .select => select
  | .update => update
  | .delete => delete
  | .join => join

/-- The semicolon at the end, with nothing behind it. -/
def terminator : Reader Unit := do
  match ← get with
  | [] => fail .unterminated
  | token :: rest =>
      unless token.spelling = ";" do
        fail (.unexpected (.symbol ";") token.spelling)
      match rest with
      | [] => set rest
      | extra :: _ => fail (.notAtEnd extra.spelling)

def statement : Reader Statement := do
  let token ← next .verb
  match Verb.ofText? token.spelling with
  | none => fail (.unknownCommand token.spelling)
  | some verb =>
      let command ← body verb
      terminator
      return command

end Reader

/-- Reads a command from its text. -/
def Statement.parse (text : String) : Except Error Statement :=
  (Reader.statement (Token.scan text)).map Prod.fst

end TextTables
