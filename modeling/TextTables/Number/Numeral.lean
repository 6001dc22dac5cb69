import TextTables.Number.Binary64

/-!
# Numerals

A numeral is an optional sign, digits, and possibly a point with further digits. It stands
for the double-precision number nearest to the decimal fraction that it writes.
-/

namespace TextTables

structure Numeral where
  negative : Bool
  whole : List Char
  /-- The digits behind the point, if there is a point. -/
  fraction : Option (List Char)
deriving DecidableEq

namespace Numeral

/-- At least one digit, and nothing but the ten digits of ASCII. -/
def areDigits (text : List Char) : Bool :=
  !text.isEmpty && text.all Char.isDigit

/-- Reads digits and an optional fraction, behind the sign. -/
def ofUnsigned? (negative : Bool) (text : List Char) : Option Numeral :=
  match text.splitOn '.' with
  | [whole] => if areDigits whole then some ⟨negative, whole, none⟩ else none
  | [whole, fraction] =>
      if areDigits whole && areDigits fraction then some ⟨negative, whole, some fraction⟩ else none
  | _ => none

/-- Reads a text that is a numeral from its first character to its last. -/
def ofText? : List Char → Option Numeral
  | '-' :: rest => ofUnsigned? true rest
  | '+' :: rest => ofUnsigned? false rest
  | text => ofUnsigned? false text

/-- The number that a row of digits writes. -/
def ofDigits (digits : List Char) : Nat :=
  digits.foldl (fun number digit => 10 * number + (digit.toNat - '0'.toNat)) 0

/-- The places behind the point. -/
def places (numeral : Numeral) : Nat :=
  (numeral.fraction.getD []).length

/-- The digits of the numeral read as one number, the point left out. -/
def digits (numeral : Numeral) : Nat :=
  ofDigits (numeral.whole ++ numeral.fraction.getD [])

/-- The double-precision number that the numeral stands for. -/
def value (numeral : Numeral) : Int :=
  let magnitude : Int := Binary64.nearest numeral.digits (Nat.pow 10 numeral.places)
  if numeral.negative then -magnitude else magnitude

example : (ofText? "+1.50".toList).map value = (ofText? "1.5".toList).map value := by
  decide +kernel

end Numeral

end TextTables
