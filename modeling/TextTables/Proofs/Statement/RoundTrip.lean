import TextTables.Proofs.Statement.Expressing
import TextTables.Proofs.Statement.Rereading

/-!
# Printing and reading

What can be expressed is what some text is read as, and it is read from its canonical spelling.
Hence printing what was read and reading it again gives the same statement.
-/

namespace TextTables

namespace Statement

/-- A statement can be expressed exactly if it is read from its canonical spelling, and whatever
text it is read from, it is one of these. -/
theorem expressible_iff_parse_print (statement : Statement) :
    (statement.Expressible ↔ parse statement.print = .ok statement) ∧
      ∀ text, parse text = .ok statement →
        statement.Expressible ∧ parse statement.print = .ok statement := by
  have printed : ∀ text, parse text = .ok statement →
      statement.Expressible ∧ parse statement.print = .ok statement := by
    intro text read
    have expressible := expressible_of_parse read
    exact ⟨expressible, parse_print expressible⟩
  exact ⟨⟨parse_print, fun read => (printed _ read).1⟩, printed⟩

/-- Columns can have the names of keywords, literals can hold punctuation, and of the parentheses
only those that group to the left stay. -/
theorem expressible_iff_parse_print_nested :
    let text := "update T set AND='( ; )',b =-1.5 where (((and=='a,b' and (OR<2))) or c Like 'x'" ++
      ") and (d!=null) ;"
    let statement := Statement.update "t" [("AND", ⟨"'( ; )'", .string⟩), ("b", ⟨"-1.5", .float⟩)]
      (.combine .and
        (.combine .or
          (.combine .and (.comparison "and" .equal ⟨"'a,b'", .string⟩)
            (.comparison "OR" .less ⟨"2", .integer⟩))
          (.comparison "c" .like ⟨"'x'", .string⟩))
        (.comparison "d" .notEqual ⟨"null", .null⟩))
    statement.print = "UPDATE t SET AND = '( ; )' , b = -1.5 WHERE " ++
        "( ( and == 'a,b' AND OR < 2 ) OR c LIKE 'x' ) AND d != null;" ∧
      parse text = .ok statement ∧ statement.Expressible ∧
      parse statement.print = .ok statement := by
  intro text statement
  have read : parse text = .ok statement := by decide +kernel
  have expressible := ((expressible_iff_parse_print statement).2 text read).1
  exact ⟨by decide +kernel, read, expressible,
    (expressible_iff_parse_print statement).1.mp expressible⟩

end Statement

end TextTables
