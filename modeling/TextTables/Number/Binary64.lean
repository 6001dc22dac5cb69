/-!
# Double-precision numbers

Every finite number of the binary64 format is a whole multiple of `2 ^ (-1074)`, its smallest
positive number. A value of the format is held as that multiple, so that numbers compare as
integers do; infinity stands at `2 ^ 1024`, the first power of two beyond the format.
-/

namespace TextTables.Binary64

/-- The multiple of `2 ^ (-1074)` at which infinity stands. -/
def infinity : Nat := 1 <<< 2098

/-- The whole number nearest to `num / den`; halfway between two, the even one. -/
def divideToNearest (num den : Nat) : Nat :=
  let quotient := num / den
  let twice := 2 * (num % den)
  if twice < den then quotient
  else if den < twice then quotient + 1
  else quotient + quotient % 2

/--
The number of the format nearest to `num / den`. Its last place is 52 binary places below the
leading one, but never finer than the unit.
-/
def nearest (num den : Nat) : Nat :=
  let scaled := num <<< 1074
  let place := 1 <<< ((scaled / den).log2 - 52)
  min (divideToNearest scaled (den * place) * place) infinity

theorem nearest_le_infinity (num den : Nat) : nearest num den ≤ infinity :=
  Nat.min_le_right _ _

@[simp]
theorem divideToNearest_mul_left (quotient : Nat) {den : Nat} (h : 0 < den) :
    divideToNearest (quotient * den) den = quotient := by
  simp [divideToNearest, Nat.mul_div_cancel _ h, h]

@[simp]
theorem nearest_zero (den : Nat) : nearest 0 den = 0 := by
  have quotient : ∀ d, divideToNearest 0 d = 0 := by
    intro d
    by_cases h : d = 0 <;> simp [divideToNearest, h, Nat.pos_of_ne_zero]
  simp only [nearest, Nat.zero_shiftLeft, quotient, Nat.zero_mul, Nat.zero_min]

/-- The smallest number of the format: half of it rounds away, more than half rounds to it. -/
example : nearest 1 (2 ^ 1075) = 0 ∧ nearest 3 (2 ^ 1076) = 1 := by decide +kernel

/-- Beyond 53 binary places the even neighbour is taken. -/
example : nearest (2 ^ 53 + 1) 1 = nearest (2 ^ 53) 1 ∧
    nearest (2 ^ 53 + 3) 1 = nearest (2 ^ 53 + 4) 1 := by decide +kernel

example : nearest (2 ^ 1024) 1 = infinity ∧ nearest (2 ^ 1024 - 2 ^ 970) 1 = infinity ∧
    nearest (2 ^ 1024 - 2 ^ 970 - 1) 1 < infinity := by decide +kernel

end TextTables.Binary64
