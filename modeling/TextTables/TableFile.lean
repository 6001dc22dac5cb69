import TextTables.Table
import TextTables.Text.Blank
import TextTables.Number.Numeral

/-!
# Table files

A table is stored as two texts. One has a line for the header and a line for each row, with
tabs between the cells; the other holds the last primary key. Writing has one form. Reading
also takes carriage returns before line feeds, empty lines, and a line feed at the end.
-/

namespace TextTables

open Text

/-- What the name of a file with a table ends in. -/
def tableEnding : String := ".tab"

/-- What the name of a file with a last primary key ends in. -/
def counterEnding : String := "_config.tab"

namespace Table

/-- The header and the rows, with line feeds between them. -/
def render (table : Table) : String :=
  "\n".intercalate ((table.columns :: table.rows).map ResultSet.line)

/-- A line without the carriage return at its end. -/
def dropReturn (line : List Char) : List Char :=
  if line.getLast? = some '\r' then line.dropLast else line

/-- The lines of a text. The last one is not ended by a line feed and keeps a carriage return. -/
def lines (text : List Char) : List (List Char) :=
  let pieces := text.splitOn '\n'
  pieces.dropLast.map dropReturn ++ pieces.getLast?.toList

def cells (line : List Char) : Row :=
  (line.splitOn '\t').map String.ofList

/-- Reads the text of a table. No primary key counts as given out yet. -/
def parse (name text : String) : Except Corruption Table :=
  match lines text.toList with
  | [] => .error .missingHeader
  | header :: rows =>
      if header = [] then .error .missingHeader
      else
        let read := do
          let table ← (bare name 0).addColumns (cells header)
          table.replaceRows ((rows.filter (· ≠ [])).map cells)
        read.mapError .misshapen

/-- The text that holds the last primary key. -/
def renderKey (table : Table) : String :=
  "pk=" ++ toString table.lastKey

/-- Reads the number of a primary key, which has 64 bits. -/
def parseKey (text : String) : Except Corruption Nat :=
  match trim text.toList with
  | 'p' :: 'k' :: '=' :: number =>
      let digits := match number with
        | '+' :: digits => digits
        | digits => digits
      if Numeral.areDigits digits && Numeral.ofDigits digits < UInt64.size then
        .ok (Numeral.ofDigits digits)
      else .error .badCounter
  | _ => .error .badCounter

end Table

end TextTables
