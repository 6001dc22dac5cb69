import Mathlib
import TextTables.Name

/-!
# Commands cut into tokens and literals

The strict forms of cutting look at no position behind the end of a text, and cut no character in
two. A text is kept as bytes, and a literal loses its first and last byte. Quotes are looked for
first, and they have one byte each, so that this is in range whatever stands between them.
-/

namespace TextTables

open Text

namespace Text

/-- The bytes from `start` up to `stop`, if both are in the text and stand between characters. -/
def slice? (text : String) (start stop : Nat) : Option String :=
  if start ≤ stop ∧ String.Pos.Raw.isValid text ⟨start⟩ ∧ String.Pos.Raw.isValid text ⟨stop⟩ then
    some (String.Pos.Raw.extract text ⟨start⟩ ⟨stop⟩)
  else none

/-- All but the first and the last byte. -/
def sliceInside? (text : String) : Option String :=
  slice? text 1 (text.utf8ByteSize - 1)

end Text

/-- The text has two bytes at least, and a quote at both ends. -/
def quotesAround (text : String) : Bool :=
  2 ≤ text.utf8ByteSize && text.toList.head? == some quote && text.toList.getLast? == some quote

def unquote? (text : String) : Option (Except Error String) :=
  if quotesAround text then (sliceInside? text).map .ok else some (.error (.malformedString text))

def isStringLiteral? (text : String) : Option Bool :=
  if quotesAround text then (sliceInside? text).map fun inside => inside.toList.all isLiteralChar
  else some false

namespace Token

/-- Sets punctuation apart from the position on, and looks at each character by its position. -/
def setApartFrom? (text : List Char) (position : Nat) : Option (List Char) :=
  if position < text.length then do
    let current ← text[position]?
    if takesEquals current && text[position + 1]? == some '=' then
      let later ← setApartFrom? text (position + 2)
      return ' ' :: current :: '=' :: ' ' :: later
    else
      let later ← setApartFrom? text (position + 1)
      return (if isPunctuation current then [' ', current, ' '] else [current]) ++ later
  else some []
termination_by text.length - position

def ofPieces? (inLiteral : Bool) : List (List Char) → Option (List Token)
  | [] => some []
  | piece :: rest => do
      if inLiteral then return ofLiteral piece :: (← ofPieces? false rest)
      let apart ← setApartFrom? piece 0
      let words := (Text.words apart).map fun word => ⟨String.ofList word⟩
      return words ++ (← ofPieces? true rest)

def scan? (text : String) : Option (List Token) :=
  ofPieces? false ((Text.trim text.toList).splitOn quote)

theorem setApart_cons (c : Char) (rest : List Char) :
    setApart (c :: rest) =
      if takesEquals c && rest.head? == some '=' then ' ' :: c :: '=' :: ' ' :: setApart rest.tail
      else (if isPunctuation c then [' ', c, ' '] else [c]) ++ setApart rest := by
  cases rest with
  | nil =>
      by_cases punctuation : isPunctuation c <;> simp [setApart, punctuation]
  | cons next others =>
      by_cases joined : takesEquals c && next == '='
      · obtain ⟨takes, same⟩ := (Bool.and_eq_true _ _).mp joined
        rw [setApart, if_pos joined]
        simp [takes, beq_iff_eq.mp same]
      · have apart : ¬ (takesEquals c && (next :: others).head? == some '=') := by
          simpa using joined
        rw [setApart, if_neg joined, if_neg apart]
        split <;> rfl

theorem setApartFrom?_eq (text : List Char) (position : Nat) :
    setApartFrom? text position = some (setApart (text.drop position)) := by
  induction position using setApartFrom?.induct text with
  | case1 position inside two one =>
      have current : text[position]? = some text[position] := List.getElem?_eq_getElem inside
      have here : text.drop position = text[position] :: text.drop (position + 1) :=
        List.drop_eq_getElem_cons inside
      rw [setApartFrom?, if_pos inside, current, here, setApart_cons, List.head?_drop,
        List.tail_drop]
      simp only [Option.bind_eq_bind, Option.bind_some, Option.pure_def, one, two]
      split <;> rfl
  | case2 position outside =>
      rw [setApartFrom?, if_neg outside, List.drop_eq_nil_of_le (Nat.not_lt.mp outside)]
      rfl

theorem ofPieces?_eq (inLiteral : Bool) (pieces : List (List Char)) :
    ofPieces? inLiteral pieces = some (ofPieces inLiteral pieces) := by
  induction pieces generalizing inLiteral with
  | nil => rfl
  | cons piece rest inductionHypothesis =>
      cases inLiteral with
      | true => simp [ofPieces?, ofPieces, inductionHypothesis]
      | false => simp [ofPieces?, ofPieces, ofPlain, setApartFrom?_eq, inductionHypothesis]

theorem scan?_eq (text : String) : scan? text = some (scan text) :=
  ofPieces?_eq false _

end Token

namespace Literal

def ofToken? (token : String) : Option (Except Error Literal) :=
  match Kind.of token with
  | .string => (unquote? token).map fun inside => inside.map fun _ => ⟨token, .string⟩
  | kind => some (.ok ⟨token, kind⟩)

def ofValue? (token : Token) : Option (Except Error Literal) := do
  let isLiteral ← isStringLiteral? token.spelling
  if Kind.of token.spelling != .string || isLiteral then ofToken? token.spelling
  else return .error (.badSyntax (.invalid .value token.spelling))

def text? (literal : Literal) : Option String :=
  if literal.kind = .string then sliceInside? literal.spelling else some literal.spelling

/-- A literal that is a string has its quotes. -/
def WellQuoted (literal : Literal) : Prop :=
  literal.kind = .string → isQuoted literal.spelling

end Literal

theorem isQuoted_iff {text : String} :
    isQuoted text ↔ ∃ inside, text.toList = quote :: inside ++ [quote] := by
  constructor
  · intro quoted
    simp only [isQuoted, Bool.and_eq_true, decide_eq_true_eq, beq_iff_eq] at quoted
    obtain ⟨⟨long, first⟩, last⟩ := quoted
    cases spelled : text.toList with
    | nil => simp [spelled] at first
    | cons c rest =>
        obtain rfl : c = quote := by simpa [spelled] using first
        have nonempty : rest ≠ [] := by
          rintro rfl
          simp [spelled] at long
        refine ⟨rest.dropLast, ?_⟩
        have ended : rest.getLast? = some quote := by
          rw [spelled, List.getLast?_cons_of_ne_nil nonempty] at last
          exact last
        rw [List.cons_append, List.dropLast_append_getLast? quote ended]
  · rintro ⟨inside, spelled⟩
    have ended : (quote :: inside ++ [quote]).getLast? = some quote := List.getLast?_concat ..
    rw [isQuoted, spelled, ended]
    simp

/-- One byte or one character less makes no difference where both ends are quotes. -/
theorem quotesAround_eq (text : String) : quotesAround text = isQuoted text := by
  have one : quote.utf8Size = 1 := by decide
  cases spelled : text.toList with
  | nil => simp [quotesAround, isQuoted, spelled]
  | cons c rest =>
      have sized : text.utf8ByteSize = c.utf8Size + String.utf8Len rest := by
        have whole := String.utf8ByteSize_ofList text.toList
        rw [String.ofList_toList, spelled, String.utf8Len_cons] at whole
        omega
      have long : c = quote → (2 ≤ text.utf8ByteSize ↔ 2 ≤ (c :: rest).length) := by
        rintro rfl
        rw [sized, one, List.length_cons]
        cases rest with
        | nil => simp
        | cons next others =>
            have positive := next.utf8Size_pos
            rw [String.utf8Len_cons]
            simp only [List.length_cons]
            omega
      by_cases first : c = quote
      · simp [quotesAround, isQuoted, spelled, long first]
      · have other : (c == quote) = false := by simpa using first
        simp [quotesAround, isQuoted, spelled, other]

theorem sliceInside?_of_isQuoted {text : String} (quoted : isQuoted text) :
    sliceInside? text = some (String.ofList (text.toList.drop 1).dropLast) := by
  obtain ⟨inside, spelled⟩ := isQuoted_iff.mp quoted
  have one : quote.utf8Size = 1 := by decide
  have shape : text = String.ofList ([quote] ++ inside ++ [quote]) := by
    rw [← String.ofList_toList (s := text), spelled]
    rfl
  have size : text.utf8ByteSize = String.utf8Len inside + 2 := by
    rw [shape, String.utf8ByteSize_ofList, String.utf8Len_append, String.utf8Len_append]
    simp [one]
    omega
  have start : String.Pos.Raw.isValid text ⟨1⟩ := by
    rw [String.Pos.Raw.isValid_eq_true_iff, String.Pos.Raw.isValid_iff_exists_append]
    refine ⟨String.ofList [quote], String.ofList (inside ++ [quote]), ?_, ?_⟩
    · rw [shape, ← String.ofList_append, List.append_assoc]
    · simp [String.rawEndPos, one]
  have stop : String.Pos.Raw.isValid text ⟨text.utf8ByteSize - 1⟩ := by
    rw [String.Pos.Raw.isValid_eq_true_iff, String.Pos.Raw.isValid_iff_exists_append]
    refine ⟨String.ofList ([quote] ++ inside), String.ofList [quote], ?_, ?_⟩
    · rw [← String.ofList_append, ← shape]
    · simp [String.rawEndPos, String.utf8ByteSize_ofList, one, size]
      omega
  have cut := String.extract_of_valid [quote] inside [quote]
  have bounds : String.utf8Len [quote] = 1 ∧
      String.utf8Len [quote] + String.utf8Len inside = text.utf8ByteSize - 1 := by
    rw [size]
    simp [one]
    omega
  rw [bounds.2, bounds.1, ← shape] at cut
  have ordered : 1 ≤ text.utf8ByteSize - 1 := by omega
  simp [sliceInside?, slice?, ordered, start, stop, cut, spelled]

theorem unquote?_eq (text : String) : unquote? text = some (unquote text) := by
  unfold unquote? unquote
  rw [quotesAround_eq]
  split
  · rename_i quoted
    rw [sliceInside?_of_isQuoted quoted]
    rfl
  · rfl

theorem isStringLiteral?_eq (text : String) :
    isStringLiteral? text = some (isStringLiteral text) := by
  unfold isStringLiteral? isStringLiteral
  rw [quotesAround_eq]
  split
  · rename_i quoted
    rw [sliceInside?_of_isQuoted quoted]
    simp [quoted]
  · rename_i unquoted
    simp [unquoted]

namespace Literal

theorem ofToken?_eq (token : String) : ofToken? token = some (ofToken token) := by
  unfold ofToken? ofToken
  rw [unquote?_eq]
  cases Kind.of token <;> rfl

/-- Every token of a command is read with its cuts in range. -/
theorem ofValue?_eq (token : Token) : ofValue? token = some (ofValue token) := by
  have literal := isStringLiteral?_eq token.spelling
  unfold ofValue? ofValue isValue
  rw [literal]
  simp only [bind, Option.bind]
  split
  · exact ofToken?_eq _
  · rfl

theorem text?_eq {literal : Literal} (quoted : literal.WellQuoted) :
    literal.text? = some literal.text := by
  unfold text? text
  split
  · rename_i isString
    exact sliceInside?_of_isQuoted (quoted isString)
  · rfl

theorem wellQuoted_of_ofToken {token : String} {literal : Literal}
    (read : ofToken token = .ok literal) : literal.WellQuoted := by
  obtain ⟨kind, spelling⟩ := kind_eq_of_ofToken read
  intro isString
  rw [spelling]
  rw [kind] at isString
  unfold ofToken at read
  rw [isString] at read
  by_contra unquoted
  simp [unquote, unquoted, Except.map] at read

end Literal

end TextTables
