import TextTables.Word

/-!
# Errors

What can go wrong, as causes: in the text of a command, in the shape of a table, on the disk,
in a file that is read back, and in a command that asks for what is not there. Each cause has
one wording.
-/

namespace TextTables

/-- What a command should have at the place where it is being read. -/
inductive Part where
  | verb
  | databaseName
  | tableName
  | attributeName
  | value
  | comparator
  | alteration
  | keyword (keyword : Keyword)
  | symbol (spelling : String)
deriving DecidableEq

namespace Part

/-- The part as it is named when something else stands in its place. -/
def described : Part → String
  | verb => "a command"
  | databaseName => "database name"
  | tableName => "table name"
  | attributeName => "an attribute name"
  | value => "a value"
  | comparator => "a comparator"
  | alteration => "ADD or DROP"
  | keyword word => word.spelling
  | symbol spelling => "'" ++ spelling ++ "'"

/-- The part as it is named when a token in its place is malformed. -/
def noun : Part → String
  | verb => "command"
  | databaseName => "database name"
  | tableName => "table name"
  | attributeName => "attribute name"
  | value => "value"
  | comparator => "comparator"
  | alteration => "alteration type"
  | keyword word => word.spelling
  | symbol spelling => "'" ++ spelling ++ "'"

end Part

/-- The deepest nesting of parentheses in a condition. -/
def maxConditionDepth : Nat := 64

/-- The most comparisons in one condition. -/
def maxConditionTerms : Nat := 4096

/-- Why a text is not a command. -/
inductive SyntaxError where
  | unknownCommand (token : String)
  | missing (part : Part)
  | unexpected (part : Part) (token : String)
  | invalid (part : Part) (token : String)
  | unterminated
  | notAtEnd (token : String)
  | createWithoutKind
  | dropWithoutKind
  | tooDeep
  | tooManyTerms
deriving DecidableEq

def SyntaxError.message : SyntaxError → String
  | unknownCommand token => "unknown command " ++ token
  | missing part => "expected " ++ part.described ++ ", found end of command"
  | unexpected part token => "expected " ++ part.described ++ ", found " ++ token
  | invalid part token => "invalid " ++ part.noun ++ ": " ++ token
  | unterminated => "missing ';' at the end of the command"
  | notAtEnd token => "unexpected " ++ token ++ " after ';'"
  | createWithoutKind => "CREATE must be followed by TABLE or DATABASE"
  | dropWithoutKind => "DROP must be followed by TABLE or DATABASE"
  | tooDeep => "conditions nested deeper than " ++ toString maxConditionDepth ++ " levels"
  | tooManyTerms => "more than " ++ toString maxConditionTerms ++ " comparisons in one condition"

/-- Why a table does not take a column, a row or a name. -/
inductive SchemaError where
  | unknownColumn (name : String)
  | duplicateColumn (name : String)
  | reservedWord (name : String)
  | primaryKeyNotWritable
  | tooManyValues (table : String)
  | tooFewValues (table : String)
deriving DecidableEq

def SchemaError.message : SchemaError → String
  | unknownColumn name => "column " ++ name ++ " does not exist"
  | duplicateColumn name => "column " ++ name ++ " already exists"
  | reservedWord name => "cannot use reserved word " ++ name
  | primaryKeyNotWritable => "the id column cannot be modified"
  | tooManyValues table => "too many values for table " ++ table
  | tooFewValues table => "not enough values for table " ++ table

/-- Why the disk refuses an operation. -/
inductive Fault where
  | notFound
  | alreadyExists
  | notDirectory
  | isDirectory
  | invalidArgument
  | nameTooLong
  | notEmpty
  | notText
  | zeroInName
deriving DecidableEq

def Fault.message : Fault → String
  | notFound => "No such file or directory (os error 2)"
  | alreadyExists => "File exists (os error 17)"
  | notDirectory => "Not a directory (os error 20)"
  | isDirectory => "Is a directory (os error 21)"
  | invalidArgument => "Invalid argument (os error 22)"
  | nameTooLong => "File name too long (os error 36)"
  | notEmpty => "Directory not empty (os error 39)"
  | notText => "stream did not contain valid UTF-8"
  | zeroInName => "file name contained an unexpected NUL byte"

/-- Why the text of a file is not that of a table, or of a key counter. -/
inductive Corruption where
  | missingHeader
  | misshapen (cause : SchemaError)
  | badCounter
deriving DecidableEq

def Corruption.message : Corruption → String
  | missingHeader => "missing header line"
  | misshapen cause => cause.message
  | badCounter => "expected pk=<integer>"

inductive Error where
  | badSyntax (cause : SyntaxError)
  | malformedString (token : String)
  | schema (cause : SchemaError)
  | noDatabaseSelected
  | unknownDatabase (name : String)
  | unknownTable (name : String)
  | duplicateDatabase (name : String)
  | duplicateTable (name : String)
  | unboundJoinAttribute (table : String)
  | corruptFile (path : String) (cause : Corruption)
  | disk (fault : Fault)
deriving DecidableEq

def Error.message : Error → String
  | badSyntax cause => cause.message
  | malformedString token => "string literal " ++ token ++ " is not wrapped in single quotes"
  | schema cause => cause.message
  | noDatabaseSelected => "no database selected"
  | unknownDatabase name => "database " ++ name ++ " does not exist"
  | unknownTable name => "table " ++ name ++ " does not exist"
  | duplicateDatabase name => "database " ++ name ++ " already exists"
  | duplicateTable name => "table " ++ name ++ " already exists"
  | unboundJoinAttribute table => "cannot bind a join attribute to table " ++ table
  | corruptFile path cause => "corrupted file " ++ path ++ ": " ++ cause.message
  | disk fault => "IO error: " ++ fault.message

end TextTables
