import TextTables.Proofs.Statement.Expressing

/-!
# Values that are equal to themselves

A value is classified by its spelling in the command, and once it is stored by its text. The two
agree unless the value is a string that looks like something else when it has lost its quotes. Such
a string compares with nothing that is stored of it, by `==` as little as by `!=`.
-/

namespace TextTables

open Text

/-- The literal is a string, and what stands between its quotes looks like something else. -/
def Literal.IsDisguised (literal : Literal) : Prop :=
  literal.kind = .string ∧ Kind.of literal.text ≠ .string

instance (literal : Literal) : Decidable literal.IsDisguised :=
  inferInstanceAs (Decidable (_ ∧ _))

namespace Comparator

variable {literal : Literal}

theorem agree_text (literal : Literal) : agree literal.text literal := by
  unfold agree
  cases literal.kind with
  | boolean | null => exact sameIgnoringCase_self _
  | string | float | integer => exact beq_self_eq_true _

/-- What is stored of a literal compares with it unless it is disguised. -/
theorem isComparableWith_text_iff (expressible : literal.Expressible) :
    (Kind.of literal.text).isComparableWith literal.kind ↔ ¬ literal.IsDisguised := by
  by_cases quoted : literal.kind = .string
  · rw [Literal.IsDisguised, quoted]
    cases Kind.of literal.text <;> decide
  · have same : Kind.of literal.text = literal.kind := by
      rw [Literal.text, if_neg quoted]
      exact (Literal.kind_eq_of_ofToken expressible.read).1.symm
    rw [same]
    exact iff_of_true (by simp [Kind.isComparableWith]) fun disguised => quoted disguised.1

theorem equal_holds_text_iff (expressible : literal.Expressible) :
    equal.holds literal.text literal ↔ ¬ literal.IsDisguised := by
  rw [← isComparableWith_text_iff expressible, holds, Bool.and_eq_true]
  exact and_iff_left (agree_text literal)

theorem not_notEqual_holds_text (literal : Literal) : ¬ notEqual.holds literal.text literal := by
  simp [holds, agree_text]

end Comparator

end TextTables
