/-!
# Result sets

What a query answers: a header, and rows aligned with it.
-/

namespace TextTables

/-- A row holds one text for each column. -/
abbrev Row := List String

structure ResultSet where
  columns : List String
  rows : List Row
deriving DecidableEq

namespace ResultSet

/-- The cells of a line, with tabs between them. -/
def line (cells : Row) : String :=
  "\t".intercalate cells

/-- The header and the rows, each line ended by a line feed. -/
def render (result : ResultSet) : String :=
  String.join ((result.columns :: result.rows).map fun cells => line cells ++ "\n")

end ResultSet

end TextTables
