import Mathlib
import TextTables.Number.Numeral
import TextTables.Text.Blank

/-!
# Numbers in decimal

A number that is written in decimal is made of digits, and reads as itself.
-/

namespace TextTables

open Text

namespace Numeral

theorem areDigits_toString (number : Nat) : areDigits (toString number).toList := by
  have digits : ∀ c ∈ Nat.toDigits 10 number, c.isDigit := fun c member =>
    Nat.isDigit_of_mem_toDigits (by decide) (by decide) member
  simpa [areDigits, Nat.toString_eq_ofList_toDigits] using digits

theorem ofDigits_toString (number : Nat) : ofDigits (toString number).toList = number := by
  have read : Nat.ofDigitChars 10 (Nat.toDigits 10 number) 0 = number :=
    Nat.ofDigitChars_ten_toDigits
  rw [Nat.ofDigitChars_eq_foldl] at read
  rw [Nat.toString_eq_ofList_toDigits, String.toList_ofList]
  exact read

theorem toString_injective : Function.Injective (toString : Nat → String) := by
  intro first second same
  rw [← ofDigits_toString first, same, ofDigits_toString]

theorem isDigit_of_areDigits {text : List Char} (digits : areDigits text) {c : Char}
    (member : c ∈ text) : c.isDigit := by
  simp only [areDigits, Bool.and_eq_true, List.all_eq_true] at digits
  exact digits.2 c member

end Numeral

namespace Text

theorem not_isBlank_of_isDigit {c : Char} (digit : c.isDigit) : ¬ isBlank c := by
  simp only [Char.isDigit, Bool.and_eq_true, decide_eq_true_eq, UInt32.le_iff_toNat_le] at digit
  have low : 48 ≤ c.toNat := digit.1
  have high : c.toNat ≤ 57 := digit.2
  simp only [isBlank, Bool.or_eq_true, Bool.and_eq_true, decide_eq_true_eq, beq_iff_eq]
  omega

end Text

end TextTables
