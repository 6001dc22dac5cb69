import TextTables.Proofs.Condition.Comparing
import TextTables.Proofs.Number.Decimal
import TextTables.Proofs.Number.Rounding
import TextTables.Proofs.Text.Names

/-!
# Integers in comparisons

An integer is written with a sign and digits, as many as one likes, and is compared as the
double-precision number nearest to it. Integers with different numbers in that format keep their
order. Those that share one are level, which happens only from `2 ^ 53` on.
-/

namespace TextTables

open Text

namespace Numeral

/-- The integer that a numeral without a fraction writes. -/
def integer (numeral : Numeral) : Int :=
  if numeral.negative then -ofDigits numeral.whole else ofDigits numeral.whole

/-- The integer that a text writes, in any number of digits. -/
def integer? (text : String) : Option Int :=
  match ofText? text.toList with
  | some numeral => if numeral.fraction.isNone then some numeral.integer else none
  | none => none

variable {text : String} {numeral : Numeral} {number : Int}

theorem integer?_eq_some_iff :
    integer? text = some number ↔
      ∃ numeral, ofText? text.toList = some numeral ∧ numeral.fraction = none ∧
        numeral.integer = number := by
  unfold integer?
  cases ofText? text.toList with
  | none => simp
  | some numeral => simp

/-- Without a fraction, a numeral stands for the number nearest to the integer that it writes. -/
theorem value_eq_ofInt (whole : numeral.fraction = none) :
    numeral.value = Binary64.ofInt numeral.integer := by
  have places : numeral.places = 0 := by simp [Numeral.places, whole]
  have digits : numeral.digits = ofDigits numeral.whole := by simp [Numeral.digits, whole]
  have unit : Nat.pow 10 0 = 1 := rfl
  rw [value, integer, places, digits, unit]
  split
  · rw [Binary64.ofInt_neg, Binary64.ofInt_natCast]
  · rw [Binary64.ofInt_natCast]

/-- A numeral has no letters, and so is no word of the language. -/
theorem not_spells (read : ofText? text.toList = some numeral) (word : String)
    (letters : ∀ c ∈ word.toList, c.isAlpha) : ¬ spells text word := by
  intro spelled
  obtain ⟨c, rest, shape⟩ : ∃ c rest, text.toList = c :: rest := by
    refine List.exists_cons_of_ne_nil fun empty => ?_
    rw [empty] at read
    cases read
  have member : c ∈ text.toList := by simp [shape]
  have plain : capital c = [c] ∧ ¬ c.isAlpha := by
    obtain digit | rfl | rfl | rfl := char_of_ofText? (by rw [read]; exact nofun) member
    · exact ascii_induction (fun c => c.isDigit → capital c = [c] ∧ ¬ c.isAlpha) (by decide +kernel)
        (lt_of_isAlphanum (by simp [Char.isAlphanum, digit])) digit
    all_goals decide
  exact plain.2 (letters c (mem_of_spells spelled member (by simp [plain.1])))

theorem kind_of_numeral (read : ofText? text.toList = some numeral) :
    Kind.of text = if numeral.fraction.isSome then .float else .integer := by
  have noTruth : ¬ Keyword.truth.isSpelledBy text := not_spells read "TRUE" (by simp)
  have noFalsehood : ¬ Keyword.falsehood.isSpelledBy text := not_spells read "FALSE" (by simp)
  have noNull : ¬ Keyword.null.isSpelledBy text := not_spells read "NULL" (by simp)
  simp [Kind.of, noTruth, noFalsehood, noNull, read]

/-- The texts of integers are those of their kind. -/
theorem integer?_isSome_iff : (integer? text).isSome ↔ Kind.of text = .integer := by
  rw [Option.isSome_iff_exists]
  constructor
  · rintro ⟨number, writes⟩
    obtain ⟨numeral, read, whole, -⟩ := integer?_eq_some_iff.mp writes
    rw [kind_of_numeral read, whole]
    rfl
  · intro kind
    have numeric : (Kind.of text).isNumeric := by rw [kind]; rfl
    obtain ⟨numeral, read, same⟩ := Kind.exists_numeral_of_isNumeric numeric
    have whole : numeral.fraction = none := by
      rw [kind] at same
      cases shape : numeral.fraction with
      | none => rfl
      | some fraction => simp [shape] at same
    exact ⟨numeral.integer, integer?_eq_some_iff.mpr ⟨numeral, read, whole, rfl⟩⟩

/-- Digits without a sign are one numeral. -/
theorem ofText?_of_areDigits {digits : List Char} (plain : areDigits digits) :
    ofText? digits = some ⟨false, digits, none⟩ := by
  have noMark : ∀ c, ¬ c.isDigit → c ∉ digits := fun c other member =>
    other (isDigit_of_areDigits plain member)
  have single : digits.splitOn '.' = [digits] :=
    List.splitOn_eq_singleton (noMark '.' (by decide))
  have unsigned : ofUnsigned? false digits = some ⟨false, digits, none⟩ := by
    rw [ofUnsigned?, single]
    simp [plain]
  unfold ofText?
  split
  · exact absurd List.mem_cons_self (noMark '-' (by decide))
  · exact absurd List.mem_cons_self (noMark '+' (by decide))
  · exact unsigned

theorem integer?_toString (number : Nat) : integer? (toString number) = some (number : Int) := by
  refine integer?_eq_some_iff.mpr ⟨_, ofText?_of_areDigits (areDigits_toString number), rfl, ?_⟩
  rw [integer, ofDigits_toString]
  rfl

end Numeral

namespace Comparator

variable {cell token : String} {literal : Literal} {stored given : Int}

/-- Two integers are ordered as the numbers nearest to them. -/
theorem holds_of_integer? (accepted : Literal.ofToken token = .ok literal)
    (writes : Numeral.integer? cell = some stored) (asks : Numeral.integer? token = some given)
    {comparator : Comparator} {relation : Int → Int → Bool}
    (ordering : comparator.order? = some relation) :
    comparator.holds cell literal =
      relation (Binary64.ofInt stored) (Binary64.ofInt given) := by
  have cellKind := Numeral.integer?_isSome_iff.mp (Option.isSome_of_eq_some writes)
  have tokenKind := Numeral.integer?_isSome_iff.mp (Option.isSome_of_eq_some asks)
  have kind := (Literal.kind_eq_of_ofToken accepted).1.trans tokenKind
  have cellNumeric : (Kind.of cell).isNumeric := by rw [cellKind]; rfl
  have literalNumeric : literal.kind.isNumeric := by rw [kind]; rfl
  obtain ⟨first, second, firstRead, secondRead, ordered⟩ :=
    exists_holds_eq accepted cellNumeric literalNumeric
  obtain ⟨_, read, whole, rfl⟩ := Numeral.integer?_eq_some_iff.mp writes
  cases firstRead.symm.trans read
  obtain ⟨_, read, otherWhole, rfl⟩ := Numeral.integer?_eq_some_iff.mp asks
  cases secondRead.symm.trans read
  rw [ordered comparator relation ordering, Numeral.value_eq_ofInt whole,
    Numeral.value_eq_ofInt otherWhole]

/-- Between integers that are not level the comparators go by their order, and level ones count as
equal numbers. -/
theorem holds_integers (accepted : Literal.ofToken token = .ok literal)
    (writes : Numeral.integer? cell = some stored) (asks : Numeral.integer? token = some given) :
    (greater.holds cell literal ↔
      given < stored ∧ Binary64.ofInt stored ≠ Binary64.ofInt given) ∧
    (less.holds cell literal ↔
      stored < given ∧ Binary64.ofInt stored ≠ Binary64.ofInt given) ∧
    (greaterOrEqual.holds cell literal ↔
      given ≤ stored ∨ Binary64.ofInt stored = Binary64.ofInt given) ∧
    (lessOrEqual.holds cell literal ↔
      stored ≤ given ∨ Binary64.ofInt stored = Binary64.ofInt given) := by
  have ordered {comparator : Comparator} {relation : Int → Int → Bool}
      (ordering : comparator.order? = some relation) :=
    holds_of_integer? accepted writes asks ordering
  refine ⟨?_, ?_, ?_, ?_⟩
  · rw [ordered rfl, decide_eq_true_eq, Binary64.ofInt_lt_iff, ne_comm]
  · rw [ordered rfl, decide_eq_true_eq, Binary64.ofInt_lt_iff]
  · rw [ordered rfl, decide_eq_true_eq, Binary64.ofInt_le_iff, eq_comm (a := Binary64.ofInt given)]
  · rw [ordered rfl, decide_eq_true_eq, Binary64.ofInt_le_iff]

end Comparator

end TextTables
