import TextTables.Proofs.Statement.Refusing
import TextTables.Proofs.Statement.Tokens
import TextTables.Proofs.Token.Keeping

/-!
# One command in a text

A text that is read has only closed literals and one semicolon outside of them, with nothing but
blanks behind it. A literal that is never closed, a semicolon that is missing and a second command
are all refused, whatever the literals hold.
-/

namespace TextTables

open Text

namespace Token

/-- The characters outside literals. -/
def outer (inLiteral : Bool) : List Char → List Char
  | [] => []
  | c :: rest =>
      if inLiteral || c == quote then outer (inLiteral != (c == quote)) rest
      else c :: outer false rest

example : outer false "a == ';' ;".toList = "a ==  ;".toList := by decide +kernel

variable {tokens words : List Token} {spelling text front body rest : List Char}

theorem outer_append (inLiteral : Bool) (text rest : List Char) :
    outer inLiteral (text ++ rest) =
      outer inLiteral text ++ outer (endsInside inLiteral text) rest := by
  induction text generalizing inLiteral with
  | nil => rfl
  | cons c others inductionHypothesis =>
      rw [List.cons_append, outer, outer, endsInside_cons]
      split
      · rw [inductionHypothesis]
      · rename_i plain
        obtain ⟨rfl, other⟩ : inLiteral = false ∧ (c == quote) = false := by simpa using plain
        rw [inductionHypothesis, other]
        rfl

theorem outer_inside (quoteFree : quote ∉ body) : outer true body = [] := by
  induction body with
  | nil => rfl
  | cons c others inductionHypothesis =>
      obtain ⟨other, later⟩ := quoteFree_cons quoteFree
      rw [outer, Bool.true_or, if_pos rfl, other]
      exact inductionHypothesis later

theorem outer_quoteFree (quoteFree : quote ∉ spelling) : outer false spelling = spelling := by
  induction spelling with
  | nil => rfl
  | cons c others inductionHypothesis =>
      obtain ⟨other, later⟩ := quoteFree_cons quoteFree
      rw [outer, other, Bool.or_false, if_neg Bool.false_ne_true, inductionHypothesis later]

/-- Outside literals a semicolon is a token of its own. -/
theorem Cuts.count_outer (cuts : Cuts spelling rest) :
    (outer false spelling).count ';' = [spelling].count [';'] := by
  rcases cuts.solid_or_literal with solid | ⟨body, quoteFree, rfl⟩
  · rw [outer_quoteFree fun quoted => (solid quote quoted).2 rfl]
    cases cuts with
    | literal => exact absurd rfl (solid quote List.mem_cons_self).2
    | @comparator c _ takes =>
        have other : c ≠ ';' := by
          rintro rfl
          exact absurd takes (by decide)
        simp [other]
    | @punctuation c _ _ _ => simp [List.count_cons]
    | word nonempty ordinary =>
        have absent : ';' ∉ spelling := fun member => absurd (ordinary ';' member) (by decide)
        have other : spelling ≠ [';'] := fun same => absent (same ▸ List.mem_cons_self)
        rw [List.count_eq_zero_of_not_mem absent, List.count_singleton,
          if_neg (by simpa using other)]
  · have opened : outer false (quote :: body ++ [quote]) = outer true (body ++ [quote]) := rfl
    rw [opened, outer_append, outer_inside quoteFree, endsInside_of_quoteFree quoteFree,
      List.count_singleton, if_neg (by simp)]
    rfl

/-- The induction is on the way the text is written. -/
theorem Writes.count_outer (writes : Writes tokens text) :
    (outer false text).count ';' = (tokens.map characters).count [';'] := by
  induction writes with
  | nil => rfl
  | @blank tokens c rest dark later inductionHypothesis =>
      have plain : (c == quote) = false := beq_eq_false_iff_ne.mpr (ne_quote_of_isBlank dark)
      have other : c ≠ ';' := by
        rintro rfl
        exact absurd dark (by decide)
      rw [outer, plain, Bool.or_false, if_neg Bool.false_ne_true, List.count_cons_of_ne other,
        inductionHypothesis]
  | token cuts later inductionHypothesis =>
      rw [outer_append, cuts.closed, List.count_append, cuts.count_outer, inductionHypothesis,
        List.map_cons, ← List.count_append, List.singleton_append]

/-- The semicolon of a command is its last token only. -/
theorem AreCommand.count_semicolon (command : AreCommand tokens words) :
    (tokens.map characters).count [';'] = 1 := by
  have inner : [';'] ∉ words.map characters := by
    intro member
    obtain ⟨word, inside, spelled⟩ := List.mem_map.mp member
    exact (command.inner word inside).noEnd (by rw [spelled]; rfl)
  rw [command.ended, List.map_append, List.count_append, List.count_eq_zero_of_not_mem inner]
  rfl

end Token

open Token

variable {text front rest : List Char}

/-- All literals of the text are closed, and there is one semicolon outside of them, with nothing
but blanks behind it. -/
structure IsOneCommand (text : List Char) : Prop where
  closed : text.count quote % 2 = 0
  single : (outer false text).count ';' = 1
  ended : ∃ front blanks, text = front ++ ';' :: blanks ∧ front.count quote % 2 = 0 ∧
    ∀ c ∈ blanks, isBlank c

namespace IsOneCommand

/-- Every semicolon outside literals is the one at the end. -/
theorem blank_behind (one : IsOneCommand text) (whole : text = front ++ ';' :: rest)
    (even : front.count quote % 2 = 0) : ∀ c ∈ rest, isBlank c := by
  obtain ⟨first, blanks, same, firstEven, dark⟩ := one.ended
  rw [whole] at same
  rcases List.append_eq_append_iff.mp same with ⟨between, rfl, behind⟩ | ⟨between, rfl, behind⟩
  · cases between with
    | nil =>
        obtain rfl : rest = blanks := by simpa using behind
        exact dark
    | cons c others =>
        -- There would be one semicolon here, and one more at the end.
        obtain ⟨rfl, rfl⟩ : c = ';' ∧ rest = others ++ ';' :: blanks := by
          simpa [eq_comm] using behind
        have here : outer false (';' :: others) = ';' :: outer false others := rfl
        have atEnd : outer false (';' :: blanks) = ';' :: outer false blanks := rfl
        have count := one.single
        rw [whole, ← List.cons_append, ← List.append_assoc, outer_append,
          endsInside_eq_false_iff.mpr firstEven, outer_append, endsInside_eq_false_iff.mpr even,
          here, atEnd, List.count_append, List.count_append, List.count_cons_self,
          List.count_cons_self] at count
        omega
  · intro c member
    refine dark c ?_
    cases between with
    | nil =>
        obtain rfl : blanks = rest := by simpa using behind
        exact member
    | cons other others =>
        obtain ⟨rfl, rfl⟩ : other = ';' ∧ blanks = others ++ ';' :: rest := by
          simpa [eq_comm] using behind
        exact List.mem_append_right _ (.tail _ member)

end IsOneCommand

/-- The tokens of a command are those of a text with one semicolon, at the end. -/
theorem Token.AreCommand.isOneCommand {text : String} {words : List Token}
    (command : AreCommand (scan text) words) : IsOneCommand text.toList := by
  have closed : endsInside false text.toList = false := AreCommand.closed command
  have even := endsInside_eq_false_iff.mp closed
  rw [scan_eq_scanFrom closed] at command
  have writes := writes_iff.mpr ⟨closed, rfl⟩
  have tokens : scanFrom false text.toList ≠ [] := by simp [command.ended]
  obtain ⟨c, last⟩ := Option.ne_none_iff_exists'.mp
    (mt List.getLast?_eq_none_iff.mp (mt (trim_eq_nil_iff closed).mp tokens))
  obtain ⟨others, token, cut, ends⟩ := exists_last_token closed last
  obtain rfl : token = ⟨";"⟩ := by
    simpa using List.append_inj_right' (cut.symm.trans command.ended) rfl
  obtain rfl : ';' = c := by simpa [characters] using ends
  obtain ⟨inner, trimmed⟩ := List.getLast?_eq_some_iff.mp last
  obtain ⟨front, blanks, -, dark, whole⟩ := exists_blanks_trim text.toList
  rw [trimmed] at whole
  have same : text.toList = (front ++ inner) ++ ';' :: blanks := by simpa using whole
  have blankQuotes : quote ∉ blanks := fun member => ne_quote_of_isBlank (dark _ member) rfl
  refine ⟨even, writes.count_outer.trans command.count_semicolon, front ++ inner, blanks, same, ?_,
    dark⟩
  rw [same, List.count_append, List.count_cons_of_ne (by decide),
    List.count_eq_zero_of_not_mem blankQuotes] at even
  exact even

/-- The text is refused, because its syntax is wrong. -/
def HasSyntaxError (text : String) : Prop :=
  ∃ cause, Statement.parse text = .error (.badSyntax cause)

theorem hasSyntaxError_of_not {text : String} (other : ¬ IsOneCommand text.toList) :
    HasSyntaxError text := by
  cases outcome : Statement.parse text with
  | ok statement =>
      obtain ⟨words, command⟩ := Statement.areCommand_of_parse outcome
      exact absurd command.isOneCommand other
  | error error =>
      obtain ⟨cause, rfl⟩ := Statement.parse_failsBySyntax text error outcome
      exact ⟨cause, outcome⟩

/-- A text that is read is one command. A literal that is never closed, a missing semicolon and
anything behind the first semicolon make the syntax wrong, whatever the literals hold. -/
theorem Statement.isOneCommand_of_parse (text : String) :
    (∀ statement, parse text = .ok statement → IsOneCommand text.toList) ∧
      (text.toList.count quote % 2 = 1 → HasSyntaxError text) ∧
      (';' ∉ outer false text.toList → HasSyntaxError text) ∧
      ∀ front rest, text.toList = front ++ ';' :: rest → front.count quote % 2 = 0 →
        (∃ c ∈ rest, isBlank c = false) → HasSyntaxError text := by
  refine ⟨fun statement read => ?_, fun odd => ?_, fun missing => ?_, ?_⟩
  · obtain ⟨words, command⟩ := areCommand_of_parse read
    exact command.isOneCommand
  · refine hasSyntaxError_of_not fun one => ?_
    have even := one.closed
    omega
  · refine hasSyntaxError_of_not fun one => missing (List.count_pos_iff.mp ?_)
    rw [one.single]
    exact Nat.one_pos
  · rintro front rest whole even ⟨c, member, solid⟩
    refine hasSyntaxError_of_not fun one => ?_
    rw [one.blank_behind whole even c member] at solid
    cases solid

/-- Semicolons within literals neither end these texts nor begin another command in them. -/
theorem Statement.isOneCommand_of_parse_semicolons :
    let inserted := "INSERT INTO t VALUES ('a;', ';') ;\n"
    let unclosed := "SELECT * FROM t WHERE a == 'b ;"
    let missing := "SELECT * FROM t WHERE a == ';'"
    let second := "USE d; USE 'e;'"
    (∃ statement, parse inserted = .ok statement) ∧ IsOneCommand inserted.toList ∧
      unclosed.toList.count quote % 2 = 1 ∧ HasSyntaxError unclosed ∧
      ';' ∉ outer false missing.toList ∧ HasSyntaxError missing ∧
      second.toList = "USE d".toList ++ ';' :: " USE 'e;'".toList ∧ HasSyntaxError second := by
  intro inserted unclosed missing second
  have read : parse inserted = .ok (.insert "t" [⟨"'a;'", .string⟩, ⟨"';'", .string⟩]) := by
    decide +kernel
  have odd : unclosed.toList.count quote % 2 = 1 := by decide +kernel
  have none : ';' ∉ outer false missing.toList := by decide +kernel
  have whole : second.toList = "USE d".toList ++ ';' :: " USE 'e;'".toList := by decide +kernel
  have solid : ∃ c ∈ " USE 'e;'".toList, isBlank c = false := ⟨'U', by decide, by decide⟩
  obtain ⟨isOne, -, -, -⟩ := isOneCommand_of_parse inserted
  obtain ⟨-, failsUnclosed, -, -⟩ := isOneCommand_of_parse unclosed
  obtain ⟨-, -, failsMissing, -⟩ := isOneCommand_of_parse missing
  obtain ⟨-, -, -, failsSecond⟩ := isOneCommand_of_parse second
  exact ⟨⟨_, read⟩, isOne _ read, odd, failsUnclosed odd, none, failsMissing none, whole,
    failsSecond _ _ whole (by decide +kernel) solid⟩

end TextTables
