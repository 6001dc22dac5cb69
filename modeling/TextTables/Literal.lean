import TextTables.Error
import TextTables.Number.Numeral

/-!
# Literals

A cell of a table and a value written in a command are texts. The kind of such a text is read
off its spelling whenever it matters, and is not stored with the cell.
-/

namespace TextTables

inductive Kind where
  | string
  | boolean
  | float
  | integer
  | null
deriving DecidableEq

namespace Kind

/-- The kind of a text: a word, a numeral, or else a string. -/
def of (text : String) : Kind :=
  if Keyword.truth.isSpelledBy text || Keyword.falsehood.isSpelledBy text then boolean
  else if Keyword.null.isSpelledBy text then null
  else
    match Numeral.ofText? text.toList with
    | some numeral => if numeral.fraction.isSome then float else integer
    | none => string

def isNumeric : Kind → Bool
  | float | integer => true
  | string | boolean | null => false

/-- Two kinds compare when they are equal or both numeric. -/
def isComparableWith (first second : Kind) : Bool :=
  first == second || (first.isNumeric && second.isNumeric)

theorem isComparableWith_comm (first second : Kind) :
    first.isComparableWith second = second.isComparableWith first := by
  cases first <;> cases second <;> rfl

end Kind

/-- The mark around a string literal. -/
def quote : Char := '\x27'

/-- At least two characters, of which the first and the last are quotes. -/
def isQuoted (text : String) : Bool :=
  let spelled := text.toList
  2 ≤ spelled.length && spelled.head? == some quote && spelled.getLast? == some quote

/-- What stands between the quotes of a string literal. -/
def unquote (text : String) : Except Error String :=
  if isQuoted text then .ok (String.ofList (text.toList.drop 1).dropLast)
  else .error (.malformedString text)

/-- A value written in a command, with its exact spelling. -/
structure Literal where
  spelling : String
  kind : Kind
deriving DecidableEq

namespace Literal

def ofToken (token : String) : Except Error Literal :=
  match Kind.of token with
  | .string => (unquote token).map fun _ => ⟨token, .string⟩
  | kind => .ok ⟨token, kind⟩

/-- The text that is stored and compared: a string literal loses its quotes. -/
def text (literal : Literal) : String :=
  if literal.kind = .string then String.ofList (literal.spelling.toList.drop 1).dropLast
  else literal.spelling

theorem kind_eq_of_ofToken {token : String} {literal : Literal}
    (h : ofToken token = .ok literal) :
    literal.kind = Kind.of token ∧ literal.spelling = token := by
  unfold ofToken at h
  split at h
  · rename_i kind
    cases unquoted : unquote token with
    | error _ => simp [unquoted, Except.map] at h
    | ok _ =>
        simp only [unquoted, Except.map, Except.ok.injEq] at h
        subst h
        exact ⟨kind.symm, rfl⟩
  · simp only [Except.ok.injEq] at h
    subst h
    exact ⟨rfl, rfl⟩

end Literal

end TextTables
