import TextTables.Literal
import TextTables.Text.Occurrence

/-!
# Comparators

A comparator holds or fails between a stored cell and a literal. Texts of kinds that do not
compare satisfy no comparator, not even `!=`.
-/

namespace TextTables

open Text

inductive Comparator where
  | equal
  | notEqual
  | greater
  | less
  | greaterOrEqual
  | lessOrEqual
  | like
deriving DecidableEq

namespace Comparator

def ofText? (text : String) : Option Comparator :=
  if text = "==" then some equal
  else if text = "!=" then some notEqual
  else if text = ">" then some greater
  else if text = "<" then some less
  else if text = ">=" then some greaterOrEqual
  else if text = "<=" then some lessOrEqual
  else if Keyword.like.isSpelledBy text then some like
  else none

/-- Booleans and `NULL` are equal in either letter case, and all else in the same letters. -/
def agree (cell : String) (literal : Literal) : Bool :=
  match literal.kind with
  | .boolean | .null => sameIgnoringCase cell literal.text
  | .string | .float | .integer => cell == literal.text

/-- The relation between the numbers that the cell and the literal stand for. -/
def ordered (relation : Int → Int → Bool) (cell : String) (literal : Literal) : Bool :=
  match Numeral.ofText? cell.toList, Numeral.ofText? literal.text.toList with
  | some stored, some given => literal.kind.isNumeric && relation stored.value given.value
  | _, _ => false

/-- The comparator holds between the cell and the literal. -/
def holds (comparator : Comparator) (cell : String) (literal : Literal) : Bool :=
  (Kind.of cell).isComparableWith literal.kind &&
    match comparator with
    | equal => agree cell literal
    | notEqual => !agree cell literal
    | greater => ordered (fun stored given => given < stored) cell literal
    | less => ordered (fun stored given => stored < given) cell literal
    | greaterOrEqual => ordered (fun stored given => given ≤ stored) cell literal
    | lessOrEqual => ordered (fun stored given => stored ≤ given) cell literal
    | like => literal.kind == .string && occursIn literal.text.toList cell.toList

theorem comparable_of_holds {comparator : Comparator} {cell : String} {literal : Literal}
    (h : comparator.holds cell literal) : (Kind.of cell).isComparableWith literal.kind := by
  simp only [holds, Bool.and_eq_true] at h
  exact h.1

end Comparator

end TextTables
