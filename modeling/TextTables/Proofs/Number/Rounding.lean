import Mathlib
import TextTables.Number.Numeral

/-!
# Rounding to double precision

The number of the format nearest to a fraction never falls when the fraction grows. Every integer
up to `2 ^ 53` is a number of the format and stays what it is. Beyond, integers are rounded by at
most one part in `2 ^ 53`, so that only neighbours come to the same number.
-/

namespace TextTables.Binary64

variable {num other den : Nat}

/-! ## Whole numbers -/

theorem divideToNearest_cases (num den : Nat) :
    (divideToNearest num den = num / den ∧ 2 * (num % den) ≤ den) ∨
      (divideToNearest num den = num / den + 1 ∧ den ≤ 2 * (num % den)) := by
  unfold divideToNearest
  dsimp only
  split
  · exact .inl ⟨rfl, by omega⟩
  · split
    · exact .inr ⟨rfl, by omega⟩
    · obtain even | odd := Nat.mod_two_eq_zero_or_one (num / den)
      · exact .inl ⟨by omega, by omega⟩
      · exact .inr ⟨by omega, by omega⟩

/-- The nearest whole number is at most one half away. -/
theorem divideToNearest_mul_close (positive : 0 < den) (num : Nat) :
    2 * (divideToNearest num den * den) ≤ 2 * num + den ∧
      2 * num ≤ 2 * (divideToNearest num den * den) + den := by
  have whole := Nat.div_add_mod num den
  rw [Nat.mul_comm] at whole
  have less := Nat.mod_lt num positive
  obtain ⟨same, rest⟩ | ⟨same, rest⟩ := divideToNearest_cases num den
  · rw [same]
    omega
  · rw [same, Nat.succ_mul (num / den) den]
    omega

theorem divideToNearest_mono (le : num ≤ other) (den : Nat) :
    divideToNearest num den ≤ divideToNearest other den := by
  obtain less | same := Nat.lt_or_eq_of_le (Nat.div_le_div_right (c := den) le)
  · obtain ⟨first, -⟩ | ⟨first, -⟩ := divideToNearest_cases num den <;>
      obtain ⟨second, -⟩ | ⟨second, -⟩ := divideToNearest_cases other den <;> omega
  · -- Both have the same quotient, so that only the remainders tell them apart.
    have rest : num % den ≤ other % den := by
      have first := Nat.div_add_mod num den
      have second := Nat.div_add_mod other den
      rw [same] at first
      omega
    simp only [divideToNearest, same]
    split
    · split
      · exact le_rfl
      · split <;> omega
    · split
      · rw [if_neg (by omega), if_pos (by omega)]
      · rw [if_neg (by omega)]
        split
        · omega
        · exact le_rfl

theorem le_divideToNearest (positive : 0 < den) {quotient : Nat} (le : quotient * den ≤ num) :
    quotient ≤ divideToNearest num den := by
  rw [← divideToNearest_mul_left quotient positive]
  exact divideToNearest_mono le den

theorem divideToNearest_le (positive : 0 < den) {quotient : Nat} (le : num ≤ quotient * den) :
    divideToNearest num den ≤ quotient := by
  calc divideToNearest num den
      ≤ divideToNearest (quotient * den) den := divideToNearest_mono le den
    _ = quotient := divideToNearest_mul_left quotient positive

/-! ## Numbers of the format -/

/-- The finest binary place of the format, behind the point. -/
def finest : Nat := 1074

/-- The multiple of the smallest number at which one stands. -/
def one : Nat := 2 ^ finest

theorem one_pos : 0 < one := Nat.two_pow_pos finest

/-- The number of binary places at the end that the format does not have. -/
def lost (num den : Nat) : Nat :=
  (num * one / den).log2 - 52

/-- The fraction, to as many places as the format has. -/
def rounded (num den : Nat) : Nat :=
  divideToNearest (num * one) (den * 2 ^ lost num den) * 2 ^ lost num den

theorem nearest_eq (num den : Nat) : nearest num den = min (rounded num den) infinity := by
  have scaled : num <<< 1074 = num * one := Nat.shiftLeft_eq num finest
  simp only [nearest, rounded, lost, scaled, Nat.one_shiftLeft]

theorem lost_mono (le : num ≤ other) (den : Nat) : lost num den ≤ lost other den := by
  have scaled : num * one / den ≤ other * one / den :=
    Nat.div_le_div_right (Nat.mul_le_mul_right one le)
  rw [lost, lost, Nat.log2_eq_log_two, Nat.log2_eq_log_two]
  exact Nat.sub_le_sub_right (Nat.log_mono_right scaled) 52

/-- All places but the lost ones make a number below `2 ^ 53`. -/
theorem mul_one_lt (positive : 0 < den) (num : Nat) :
    num * one < 2 ^ 53 * (den * 2 ^ lost num den) := by
  have below : num * one / den < 2 ^ ((num * one / den).log2 + 1) := Nat.lt_log2_self
  have places : (num * one / den).log2 + 1 ≤ 53 + lost num den := by
    unfold lost
    omega
  have bound : num * one / den < 2 ^ (53 + lost num den) :=
    below.trans_le (Nat.pow_le_pow_right Nat.two_pos places)
  rw [Nat.div_lt_iff_lt_mul positive, Nat.pow_add] at bound
  calc num * one < 2 ^ 53 * 2 ^ lost num den * den := bound
    _ = 2 ^ 53 * (den * 2 ^ lost num den) := by ring

/-- A number that loses places has all places in front of them. -/
theorem le_mul_one (loses : 0 < lost num den) :
    2 ^ 52 * (den * 2 ^ lost num den) ≤ num * one := by
  have nonzero : num * one / den ≠ 0 := by
    intro zero
    simp [lost, zero] at loses
  have places : 52 + lost num den = (num * one / den).log2 := by
    unfold lost at loses ⊢
    omega
  have above : 2 ^ (52 + lost num den) ≤ num * one / den := by
    rw [places]
    exact Nat.log2_self_le nonzero
  rw [Nat.pow_add] at above
  calc 2 ^ 52 * (den * 2 ^ lost num den) = 2 ^ 52 * 2 ^ lost num den * den := by ring
    _ ≤ num * one / den * den := Nat.mul_le_mul_right den above
    _ ≤ num * one := Nat.div_mul_le_self _ _

/-- A power of two lies between two numbers that lose different numbers of places. -/
theorem rounded_mono (positive : 0 < den) (le : num ≤ other) :
    rounded num den ≤ rounded other den := by
  have unit : ∀ places, 0 < den * 2 ^ places := fun places =>
    Nat.mul_pos positive (Nat.two_pow_pos places)
  obtain fewer | same := Nat.lt_or_eq_of_le (lost_mono le den)
  · have split : 2 ^ 53 * 2 ^ lost num den ≤ 2 ^ 52 * 2 ^ lost other den := by
      rw [← Nat.pow_add, ← Nat.pow_add]
      exact Nat.pow_le_pow_right Nat.two_pos (by omega)
    calc rounded num den
        ≤ 2 ^ 53 * 2 ^ lost num den := by
          refine Nat.mul_le_mul_right _ (divideToNearest_le (unit _) ?_)
          exact (mul_one_lt positive num).le
      _ ≤ 2 ^ 52 * 2 ^ lost other den := split
      _ ≤ rounded other den := by
          refine Nat.mul_le_mul_right _ (le_divideToNearest (unit _) ?_)
          exact le_mul_one (by omega)
  · rw [rounded, rounded, same]
    refine Nat.mul_le_mul_right _ (divideToNearest_mono ?_ _)
    exact Nat.mul_le_mul_right one le

theorem nearest_mono (positive : 0 < den) (le : num ≤ other) :
    nearest num den ≤ nearest other den := by
  rw [nearest_eq, nearest_eq]
  exact min_le_min_right infinity (rounded_mono positive le)

/-- The distance to the rounded number is at most one part in `2 ^ 53`. -/
theorem rounded_close (num : Nat) :
    2 ^ 53 * rounded num 1 ≤ 2 ^ 53 * (num * one) + num * one ∧
      2 ^ 53 * (num * one) ≤ 2 ^ 53 * rounded num 1 + num * one := by
  obtain ⟨above, below⟩ := divideToNearest_mul_close
    (Nat.mul_pos Nat.one_pos (Nat.two_pow_pos (lost num 1))) (num * one)
  have same : rounded num 1 =
      divideToNearest (num * one) (1 * 2 ^ lost num 1) * (1 * 2 ^ lost num 1) := by
    rw [rounded, Nat.one_mul]
  rw [← same] at above below
  obtain none | some := Nat.eq_zero_or_pos (lost num 1)
  · have exact : rounded num 1 = num * one := by
      have whole := divideToNearest_mul_left (num * one) Nat.one_pos
      rw [Nat.mul_one] at whole
      rw [rounded, none, Nat.pow_zero, Nat.mul_one, Nat.mul_one, whole]
    omega
  · have unit := le_mul_one some
    omega

/-- What is a multiple of its last place stays what it is. -/
theorem rounded_of_dvd (divides : 2 ^ lost num 1 ∣ num * one) : rounded num 1 = num * one := by
  obtain ⟨quotient, whole⟩ := divides
  rw [rounded, whole, Nat.one_mul, Nat.mul_comm (2 ^ _) quotient,
    divideToNearest_mul_left quotient (Nat.two_pow_pos _)]

theorem mul_one_le_infinity (le : num ≤ 2 ^ 53) : num * one ≤ infinity := by
  have within : 2 ^ 53 * one ≤ infinity := by decide +kernel
  exact (Nat.mul_le_mul_right one le).trans within

/-- An integer with at most 53 binary places is a number of the format. -/
theorem nearest_of_le (le : num ≤ 2 ^ 53) : nearest num 1 = num * one := by
  have divides : 2 ^ lost num 1 ∣ num * one := by
    by_cases fine : lost num 1 ≤ finest
    · exact (Nat.pow_dvd_pow 2 fine).mul_left num
    · -- Only `2 ^ 53` itself loses one place more than that.
      have loses : 0 < lost num 1 := by omega
      have unit := le_mul_one loses
      have coarse : one * 2 ≤ 2 ^ lost num 1 := by
        rw [one, ← Nat.pow_succ]
        exact Nat.pow_le_pow_right Nat.two_pos (by omega)
      have large : 2 ^ 53 * one ≤ num * one := by omega
      have whole : num = 2 ^ 53 := le.antisymm (Nat.le_of_mul_le_mul_right large one_pos)
      have total : num * one = 2 ^ (53 + finest) := by rw [whole, one, Nat.pow_add]
      rw [total, Nat.one_mul, ← Nat.pow_add] at unit
      rw [total]
      have places := (Nat.pow_le_pow_iff_right Nat.one_lt_two).mp unit
      exact Nat.pow_dvd_pow 2 (by omega)
  rw [nearest_eq, rounded_of_dvd divides, Nat.min_eq_left (mul_one_le_infinity le)]

theorem nearest_close (finite : nearest num 1 < infinity) :
    2 ^ 53 * nearest num 1 ≤ 2 ^ 53 * (num * one) + num * one ∧
      2 ^ 53 * (num * one) ≤ 2 ^ 53 * nearest num 1 + num * one := by
  rw [nearest_eq] at finite ⊢
  have within : rounded num 1 ≤ infinity := by omega
  rw [Nat.min_eq_left within]
  exact rounded_close num

/-! ## Integers -/

/-- The number of the format nearest to an integer. -/
def ofInt (number : Int) : Int :=
  number.sign * nearest number.natAbs 1

variable {number first second : Int}

theorem ofInt_natCast (number : Nat) : ofInt number = nearest number 1 := by
  cases number with
  | zero => simp [ofInt]
  | succ number =>
      rw [ofInt, Int.sign_eq_one_of_pos (by omega), Int.one_mul, Int.natAbs_natCast]

theorem ofInt_neg (number : Int) : ofInt (-number) = -ofInt number := by
  rw [ofInt, ofInt, Int.sign_neg, Int.natAbs_neg, Int.neg_mul]

theorem natAbs_ofInt (number : Int) : (ofInt number).natAbs = nearest number.natAbs 1 := by
  obtain ⟨size, rfl | rfl⟩ := number.eq_nat_or_neg
  · rw [ofInt_natCast, Int.natAbs_natCast, Int.natAbs_natCast]
  · rw [ofInt_neg, ofInt_natCast, Int.natAbs_neg, Int.natAbs_natCast, Int.natAbs_neg,
      Int.natAbs_natCast]

theorem ofInt_mono (le : first ≤ second) : ofInt first ≤ ofInt second := by
  obtain ⟨low, rfl | rfl⟩ := first.eq_nat_or_neg <;>
    obtain ⟨high, rfl | rfl⟩ := second.eq_nat_or_neg
  · rw [ofInt_natCast, ofInt_natCast]
    exact Int.ofNat_le.mpr (nearest_mono Nat.one_pos (by omega))
  · obtain ⟨rfl, rfl⟩ : low = 0 ∧ high = 0 := by omega
    rfl
  · rw [ofInt_neg, ofInt_natCast, ofInt_natCast]
    omega
  · rw [ofInt_neg, ofInt_neg, ofInt_natCast, ofInt_natCast]
    have reversed : nearest high 1 ≤ nearest low 1 := nearest_mono Nat.one_pos (by omega)
    omega

theorem ofInt_of_natAbs_le (le : number.natAbs ≤ 2 ^ 53) : ofInt number = number * one := by
  obtain ⟨size, rfl | rfl⟩ := number.eq_nat_or_neg
  · rw [ofInt_natCast, nearest_of_le (by omega), Int.natCast_mul]
  · rw [ofInt_neg, ofInt_natCast, nearest_of_le (by omega), Int.natCast_mul, Int.neg_mul]

theorem ofInt_close (finite : (ofInt number).natAbs < infinity) :
    2 ^ 53 * (ofInt number - number * one).natAbs ≤ number.natAbs * one := by
  rw [natAbs_ofInt] at finite
  obtain ⟨above, below⟩ := nearest_close finite
  obtain ⟨size, rfl | rfl⟩ := number.eq_nat_or_neg
  · rw [ofInt_natCast, ← Int.natCast_mul]
    simp only [Int.natAbs_natCast] at above below ⊢
    omega
  · rw [ofInt_neg, ofInt_natCast, Int.neg_mul, ← Int.natCast_mul]
    simp only [Int.natAbs_natCast, Int.natAbs_neg] at above below ⊢
    omega

/-- Integers are ordered as their numbers in the format, as far as these differ. -/
theorem ofInt_lt_iff : ofInt first < ofInt second ↔ first < second ∧ ofInt first ≠ ofInt second := by
  constructor
  · intro less
    refine ⟨?_, less.ne⟩
    by_contra reversed
    exact absurd (ofInt_mono (not_lt.mp reversed)) (not_le.mpr less)
  · rintro ⟨less, differ⟩
    exact lt_of_le_of_ne (ofInt_mono less.le) differ

theorem ofInt_le_iff : ofInt first ≤ ofInt second ↔ first ≤ second ∨ ofInt first = ofInt second := by
  rw [← not_lt, ofInt_lt_iff, not_and_or, not_lt, not_not, eq_comm (a := ofInt second)]

/-- An integer that is small enough to be kept shares its number with no other. -/
theorem le_natAbs_of_ofInt_eq (same : ofInt first = ofInt second) (differ : first ≠ second) :
    2 ^ 53 ≤ first.natAbs := by
  by_contra small
  have kept : ofInt first = first * one := ofInt_of_natAbs_le (by omega)
  have positive : (0 : Int) < one := Int.natCast_pos.mpr one_pos
  obtain less | more := Int.lt_or_gt_of_ne differ
  · have next : ofInt (first + 1) = (first + 1) * one := ofInt_of_natAbs_le (by omega)
    have above : ofInt (first + 1) ≤ ofInt second := ofInt_mono (by omega)
    rw [next, ← same, kept, Int.add_mul] at above
    omega
  · have previous : ofInt (first - 1) = (first - 1) * one := ofInt_of_natAbs_le (by omega)
    have below : ofInt second ≤ ofInt (first - 1) := ofInt_mono (by omega)
    rw [previous, ← same, kept, Int.sub_mul] at below
    omega

/-- Integers with the same finite number lie close together. -/
theorem close_of_ofInt_eq (same : ofInt first = ofInt second)
    (finite : (ofInt first).natAbs < infinity) :
    2 ^ 53 * (first - second).natAbs ≤ first.natAbs + second.natAbs := by
  have firstClose := ofInt_close finite
  have secondClose := ofInt_close (same ▸ finite)
  rw [same] at firstClose
  have apart : (first - second).natAbs * one ≤
      (ofInt second - first * one).natAbs + (ofInt second - second * one).natAbs := by
    have whole : (first - second).natAbs * one = (first * one - second * one : Int).natAbs := by
      rw [← Int.sub_mul, Int.natAbs_mul, Int.natAbs_natCast]
    omega
  refine Nat.le_of_mul_le_mul_right ?_ one_pos
  calc 2 ^ 53 * (first - second).natAbs * one
      = 2 ^ 53 * ((first - second).natAbs * one) := Nat.mul_assoc _ _ _
    _ ≤ 2 ^ 53 * ((ofInt second - first * one).natAbs +
          (ofInt second - second * one).natAbs) := Nat.mul_le_mul_left _ apart
    _ ≤ first.natAbs * one + second.natAbs * one := by omega
    _ = (first.natAbs + second.natAbs) * one := (Nat.add_mul _ _ _).symm

end TextTables.Binary64
