import TextTables.Comparator
import TextTables.Proofs.Text.Cells
import TextTables.Proofs.Text.Slices

/-!
# How comparators hang together

Seven comparators are defined one by one over texts of five kinds. Between kinds that compare,
`==` and `!=` are each other's negation. The four comparators that order go by the numbers that
two numerals stand for, and fail wherever one of the texts is no numeral.
-/

namespace TextTables

open Text

namespace Kind

variable {text : String}

/-- A text is of a numeric kind as it is a numeral, with or without a fraction. -/
theorem exists_numeral_of_isNumeric (numeric : (Kind.of text).isNumeric) :
    ∃ numeral, Numeral.ofText? text.toList = some numeral ∧
      Kind.of text = if numeral.fraction.isSome then .float else .integer := by
  unfold Kind.of at numeric ⊢
  split at numeric
  · cases numeric
  · split at numeric
    · cases numeric
    · split at numeric
      case h_1 numeral read =>
          refine ⟨numeral, read, ?_⟩
          rw [if_neg ‹_›, if_neg ‹_›]
      case h_2 => cases numeric

end Kind

namespace Literal

variable {token : String} {literal : Literal}

/-- Without quotes there is nothing to take off. -/
theorem text_of_ne_string (accepted : ofToken token = .ok literal)
    (kind : literal.kind ≠ .string) : literal.text = token := by
  rw [text, if_neg kind]
  exact (kind_eq_of_ofToken accepted).2

theorem text_of_isNumeric (accepted : ofToken token = .ok literal)
    (numeric : literal.kind.isNumeric) : literal.text = token := by
  refine text_of_ne_string accepted fun string => ?_
  rw [string] at numeric
  cases numeric

/-- A string stands between quotes. -/
theorem toList_of_string (accepted : ofToken token = .ok literal)
    (kind : literal.kind = .string) :
    token.toList = quote :: literal.text.toList ++ [quote] := by
  obtain ⟨inside, whole⟩ := isQuoted_iff.mp (wellQuoted_of_ofToken accepted kind)
  rw [text, if_pos kind, whole, String.toList_ofList, ← (kind_eq_of_ofToken accepted).2, whole]
  simp

/-- What has quotes is no other kind of value. -/
theorem kind_of_toList (accepted : ofToken token = .ok literal) {inside : List Char}
    (quoted : token.toList = quote :: inside ++ [quote]) : literal.kind = .string := by
  rw [(kind_eq_of_ofToken accepted).1]
  by_contra otherwise
  refine Kind.not_mem_of_ne_string (c := quote) otherwise (by decide) (by decide) (by decide) ?_
  rw [quoted]
  exact List.mem_cons_self

end Literal

namespace Comparator

/-- The order that the comparator asks for between two numbers, if it asks for one. -/
def order? : Comparator → Option (Int → Int → Bool)
  | greater => some fun stored given => given < stored
  | less => some fun stored given => stored < given
  | greaterOrEqual => some fun stored given => given ≤ stored
  | lessOrEqual => some fun stored given => stored ≤ given
  | equal | notEqual | like => none

variable {cell token : String} {literal : Literal}

theorem holds_of_order? {comparator : Comparator} {relation : Int → Int → Bool}
    (ordering : comparator.order? = some relation) :
    comparator.holds cell literal =
      ((Kind.of cell).isComparableWith literal.kind && ordered relation cell literal) := by
  cases comparator <;> cases ordering <;> rfl

/-- Two numerals are ordered as the numbers that they stand for. -/
theorem exists_holds_eq (accepted : Literal.ofToken token = .ok literal)
    (stored : (Kind.of cell).isNumeric) (given : literal.kind.isNumeric) :
    ∃ first second : Numeral, Numeral.ofText? cell.toList = some first ∧
      Numeral.ofText? token.toList = some second ∧
      ∀ (comparator : Comparator) (relation : Int → Int → Bool),
        comparator.order? = some relation →
        comparator.holds cell literal = relation first.value second.value := by
  have kind := (Literal.kind_eq_of_ofToken accepted).1
  obtain ⟨first, firstRead, -⟩ := Kind.exists_numeral_of_isNumeric stored
  obtain ⟨second, secondRead, -⟩ := Kind.exists_numeral_of_isNumeric (kind ▸ given)
  refine ⟨first, second, firstRead, secondRead, fun comparator relation ordering => ?_⟩
  rw [holds_of_order? ordering, ordered, Literal.text_of_isNumeric accepted given, firstRead,
    secondRead]
  simp [Kind.isComparableWith, stored, given]

/-- What is no number on one side is not ordered. -/
theorem not_holds_of_order? {comparator : Comparator} {relation : Int → Int → Bool}
    (ordering : comparator.order? = some relation)
    (otherwise : ¬ ((Kind.of cell).isNumeric ∧ literal.kind.isNumeric)) :
    ¬ comparator.holds cell literal := by
  rw [holds_of_order? ordering]
  intro held
  rw [Bool.and_eq_true, ordered] at held
  obtain ⟨comparable, held⟩ := held
  split at held
  · rw [Bool.and_eq_true] at held
    obtain ⟨given, -⟩ := held
    refine otherwise ⟨?_, given⟩
    rw [Kind.isComparableWith, Bool.or_eq_true, beq_iff_eq, Bool.and_eq_true] at comparable
    obtain same | both := comparable
    · rw [same, given]
    · exact both.1
  · cases held

theorem equal_or_notEqual_holds_iff :
    equal.holds cell literal ∨ notEqual.holds cell literal ↔
      Kind.of cell = literal.kind ∨ (Kind.of cell).isNumeric ∧ literal.kind.isNumeric := by
  cases agreeing : agree cell literal <;> simp [holds, agreeing, Kind.isComparableWith]

theorem not_equal_and_notEqual_holds :
    ¬ (equal.holds cell literal ∧ notEqual.holds cell literal) := by
  cases agreeing : agree cell literal <;> simp [holds, agreeing]

theorem like_holds_iff (accepted : Literal.ofToken token = .ok literal) :
    like.holds cell literal ↔
      ∃ inside, token.toList = quote :: inside ++ [quote] ∧ Kind.of cell = .string ∧
        inside <:+: cell.toList := by
  constructor
  · intro held
    simp only [holds, Bool.and_eq_true, beq_iff_eq, occursIn_iff] at held
    obtain ⟨comparable, string, occurs⟩ := held
    rw [string] at comparable
    refine ⟨literal.text.toList, Literal.toList_of_string accepted string, ?_, occurs⟩
    simpa [Kind.isComparableWith, Kind.isNumeric] using comparable
  · rintro ⟨inside, quoted, stored, occurs⟩
    have string := Literal.kind_of_toList accepted quoted
    have spelled := Literal.toList_of_string accepted string
    rw [quoted, List.append_left_inj, List.cons_inj_right] at spelled
    simp only [holds, Bool.and_eq_true, beq_iff_eq, occursIn_iff]
    exact ⟨by rw [stored, string]; rfl, string, spelled ▸ occurs⟩

/-- The literal and the cell are the same text. -/
theorem eq_of_equal_holds (held : equal.holds cell literal)
    (kind : literal.kind = .string ∨ literal.kind.isNumeric) : cell = literal.text := by
  simp only [holds, Bool.and_eq_true] at held
  have agreeing := held.2
  unfold agree at agreeing
  cases shape : literal.kind with
  | string | float | integer => simpa [shape] using agreeing
  | boolean | null => simp [shape, Kind.isNumeric] at kind

theorem like_holds_of_equal_holds (string : literal.kind = .string)
    (held : equal.holds cell literal) : like.holds cell literal := by
  have same := eq_of_equal_holds held (.inl string)
  simp only [holds, Bool.and_eq_true] at held ⊢
  refine ⟨held.1, by simp [string], ?_⟩
  rw [occursIn_iff, same]

/-- The answers of the seven comparators on one cell and one literal hang together. One of `==` and
`!=` holds exactly if the kinds compare, and never both. What orders is false unless both sides are
numeric, and then it is a total order, in which equal texts are level. `LIKE` looks for what
stands between quotes in a string, and a string contains itself. -/
theorem holds_coherent (accepted : Literal.ofToken token = .ok literal) (cell : String) :
    ¬ (equal.holds cell literal ∧ notEqual.holds cell literal) ∧
    (equal.holds cell literal ∨ notEqual.holds cell literal ↔
      Kind.of cell = literal.kind ∨ (Kind.of cell).isNumeric ∧ literal.kind.isNumeric) ∧
    (¬ ((Kind.of cell).isNumeric ∧ literal.kind.isNumeric) →
      ¬ greater.holds cell literal ∧ ¬ less.holds cell literal ∧
        ¬ greaterOrEqual.holds cell literal ∧ ¬ lessOrEqual.holds cell literal) ∧
    ((Kind.of cell).isNumeric ∧ literal.kind.isNumeric →
      (greater.holds cell literal ∨ less.holds cell literal ∨
        greaterOrEqual.holds cell literal ∧ lessOrEqual.holds cell literal) ∧
      ¬ (greater.holds cell literal ∧ less.holds cell literal) ∧
      ¬ ((greater.holds cell literal ∨ less.holds cell literal) ∧
        greaterOrEqual.holds cell literal ∧ lessOrEqual.holds cell literal) ∧
      (greaterOrEqual.holds cell literal ↔ ¬ less.holds cell literal) ∧
      (lessOrEqual.holds cell literal ↔ ¬ greater.holds cell literal) ∧
      (equal.holds cell literal →
        greaterOrEqual.holds cell literal ∧ lessOrEqual.holds cell literal)) ∧
    (like.holds cell literal ↔
      ∃ inside, token.toList = quote :: inside ++ [quote] ∧ Kind.of cell = .string ∧
        inside <:+: cell.toList) ∧
    (literal.kind = .string → equal.holds cell literal → like.holds cell literal) := by
  refine ⟨not_equal_and_notEqual_holds, equal_or_notEqual_holds_iff, fun otherwise => ?_,
    fun ⟨stored, given⟩ => ?_, like_holds_iff accepted, like_holds_of_equal_holds⟩
  · exact ⟨not_holds_of_order? rfl otherwise, not_holds_of_order? rfl otherwise,
      not_holds_of_order? rfl otherwise, not_holds_of_order? rfl otherwise⟩
  · obtain ⟨first, second, firstRead, secondRead, ordering⟩ :=
      exists_holds_eq accepted stored given
    have level : equal.holds cell literal → first.value = second.value := by
      intro held
      have same := eq_of_equal_holds held (.inr given)
      rw [Literal.text_of_isNumeric accepted given] at same
      rw [same, secondRead, Option.some.injEq] at firstRead
      rw [firstRead]
    rw [ordering greater _ rfl, ordering less _ rfl, ordering greaterOrEqual _ rfl,
      ordering lessOrEqual _ rfl]
    simp only [decide_eq_true_eq]
    refine ⟨?_, ?_, ?_, ?_, ?_, fun held => ?_⟩
    · omega
    · omega
    · omega
    · omega
    · omega
    · have same := level held
      omega

/-- A numeral with a fraction lies above a whole number, and a string contains a part of it. -/
theorem holds_coherent_mixed :
    Literal.ofToken "7" = .ok ⟨"7", .integer⟩ ∧ greater.holds "7.5" ⟨"7", .integer⟩ ∧
      ¬ lessOrEqual.holds "7.5" ⟨"7", .integer⟩ ∧
      Literal.ofToken "'an'" = .ok ⟨"'an'", .string⟩ ∧ like.holds "Jan" ⟨"'an'", .string⟩ := by
  have number : Literal.ofToken "7" = .ok ⟨"7", .integer⟩ := by decide +kernel
  have pattern : Literal.ofToken "'an'" = .ok ⟨"'an'", .string⟩ := by decide +kernel
  have above : greater.holds "7.5" ⟨"7", .integer⟩ := by decide +kernel
  obtain ⟨-, -, -, numeric, -, -⟩ := holds_coherent number "7.5"
  obtain ⟨-, -, -, -, negation, -⟩ := numeric (by decide +kernel)
  obtain ⟨-, -, -, -, contains, -⟩ := holds_coherent pattern "Jan"
  refine ⟨number, above, fun below => negation.mp below above, pattern, contains.mpr ?_⟩
  exact ⟨"an".toList, by decide +kernel, by decide +kernel, ⟨['J'], [], by decide +kernel⟩⟩

end Comparator

end TextTables
