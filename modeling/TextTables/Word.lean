import TextTables.Text.Case

/-!
# The words of the command language

A command starts with one of nine verbs and is held together by sixteen further keywords.
Each word is recognised by its capital form, and none of them can name a database, a table
or a column.
-/

namespace TextTables

open Text

inductive Verb where
  | use
  | create
  | drop
  | alter
  | insert
  | select
  | update
  | delete
  | join
deriving DecidableEq

namespace Verb

def spelling : Verb → String
  | use => "USE"
  | create => "CREATE"
  | drop => "DROP"
  | alter => "ALTER"
  | insert => "INSERT"
  | select => "SELECT"
  | update => "UPDATE"
  | delete => "DELETE"
  | join => "JOIN"

def all : List Verb := [use, create, drop, alter, insert, select, update, delete, join]

theorem mem_all (verb : Verb) : verb ∈ all := by
  cases verb <;> decide

theorem spelling_injective (first second : Verb) (h : first.spelling = second.spelling) :
    first = second := by
  revert h
  cases first <;> cases second <;> decide

def ofText? : String → Option Verb := spelled? spelling all

theorem ofText?_eq_some_iff {text : String} {verb : Verb} :
    ofText? text = some verb ↔ spells text verb.spelling :=
  spelled?_eq_some_iff mem_all spelling_injective

end Verb

inductive Keyword where
  | database
  | table
  | into
  | values
  | «from»
  | «where»
  | and
  | or
  | set
  | on
  | truth
  | falsehood
  | null
  | like
  | add
  | drop
deriving DecidableEq

namespace Keyword

def spelling : Keyword → String
  | database => "DATABASE"
  | table => "TABLE"
  | into => "INTO"
  | values => "VALUES"
  | «from» => "FROM"
  | «where» => "WHERE"
  | and => "AND"
  | or => "OR"
  | set => "SET"
  | on => "ON"
  | truth => "TRUE"
  | falsehood => "FALSE"
  | null => "NULL"
  | like => "LIKE"
  | add => "ADD"
  | drop => "DROP"

def all : List Keyword :=
  [database, table, into, values, «from», «where», and, or, set, on, truth, falsehood, null,
    like, add, drop]

theorem mem_all (keyword : Keyword) : keyword ∈ all := by
  cases keyword <;> decide

theorem spelling_injective (first second : Keyword) (h : first.spelling = second.spelling) :
    first = second := by
  revert h
  cases first <;> cases second <;> decide

def ofText? : String → Option Keyword := spelled? spelling all

def isSpelledBy (keyword : Keyword) (text : String) : Bool :=
  spells text keyword.spelling

theorem ofText?_eq_some_iff {text : String} {keyword : Keyword} :
    ofText? text = some keyword ↔ keyword.isSpelledBy text :=
  spelled?_eq_some_iff mem_all spelling_injective

end Keyword

/-- A word of the language, which no database, table or column can have for a name. -/
def isReserved (name : String) : Bool :=
  (Keyword.ofText? name).isSome || (Verb.ofText? name).isSome

end TextTables
