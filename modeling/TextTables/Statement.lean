import TextTables.Name
import TextTables.Condition

/-!
# Statements

The commands of the language after they have been read. The names of databases and tables are
in lower case; the names of columns keep the spelling of the command.
-/

namespace TextTables

inductive Alteration where
  | add
  | drop
deriving DecidableEq

/-- The columns that a query asks for. -/
inductive Selection where
  | all
  | only (columns : List String)
deriving DecidableEq

inductive Statement where
  | use (database : String)
  | createDatabase (database : String)
  | createTable (table : String) (columns : List String)
  | dropDatabase (database : String)
  | dropTable (table : String)
  | alter (table : String) (alteration : Alteration) (column : String)
  | insert (table : String) (values : List Literal)
  | select (columns : Selection) (table : String) (condition : Option Condition)
  | update (table : String) (assignments : List (String × Literal)) (condition : Condition)
  | delete (table : String) (condition : Condition)
  | join (first second : String) (firstAttribute secondAttribute : Attribute)
deriving DecidableEq

/-- The verb that the statement is written with. -/
def Statement.verb : Statement → Verb
  | use _ => .use
  | createDatabase _ => .create
  | createTable _ _ => .create
  | dropDatabase _ => .drop
  | dropTable _ => .drop
  | alter _ _ _ => .alter
  | insert _ _ => .insert
  | select _ _ _ => .select
  | update _ _ _ => .update
  | delete _ _ => .delete
  | join _ _ _ _ => .join

end TextTables
