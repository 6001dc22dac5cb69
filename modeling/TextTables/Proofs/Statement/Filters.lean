import TextTables.Proofs.Statement.Grammar

/-!
# Statements with a condition

What a command reads behind `WHERE` is a condition and the final semicolon. The two are accepted
exactly if the tokens in front of the semicolon have a tree of the grammar within the limits, and
the condition of the statement is the one of that tree.
-/

namespace TextTables

namespace Condition

variable {tokens rest : List Token} {condition : Condition}

theorem read_eq_ok_iff :
    read tokens = .ok (condition, rest) ↔ ∃ count, ReadsClause 0 0 tokens condition count rest := by
  constructor
  · intro found
    unfold read at found
    split at found
    · cases found
    · rename_i count rest clause
      cases found
      exact ⟨count, rest.property, clause⟩
  · rintro ⟨count, shorter, clause⟩
    rw [read, clause]

/-- In front of a semicolon exactly the tokens of the trees within the limits are read. -/
theorem read_semicolon_iff :
    read tokens = .ok (condition, [⟨";"⟩]) ↔
      ∃ clause : Clause, clause.tokens ++ [⟨";"⟩] = tokens ∧
        clause.comparisons.length ≤ maxConditionTerms ∧ clause.nesting ≤ maxConditionDepth ∧
        clause.condition = condition := by
  rw [read_eq_ok_iff]
  constructor
  · rintro ⟨count, shorter, found⟩
    obtain ⟨clause, spelled, means, shallow, counted, few⟩ :=
      derives_of_read.1 0 0 tokens (Nat.zero_le _) _ _ _ found
    rw [Nat.zero_add] at shallow counted
    exact ⟨clause, spelled, counted ▸ few, shallow, means⟩
  · rintro ⟨clause, rfl, few, shallow, rfl⟩
    rw [← Nat.zero_add clause.nesting] at shallow
    rw [← Nat.zero_add clause.comparisons.length] at few
    exact ⟨_, clause.reads shallow few endsClause_semicolon⟩

end Condition

namespace Reader

/-- A query, a change or a deletion up to `WHERE`, and what the condition makes of it. -/
def opening : Reader (Condition → Statement) := do
  let token ← next .verb
  match Verb.ofText? token.spelling with
  | some .select =>
      let chosen ← selection
      keyword .from
      let table ← tableName
      keyword .where
      return fun filter => .select chosen table (some filter)
  | some .update =>
      let table ← tableName
      keyword .set
      let changes ← assignments
      keyword .where
      return .update table changes
  | some .delete =>
      keyword .from
      let table ← tableName
      keyword .where
      return .delete table
  | _ => fail (.unknownCommand token.spelling)

/-- A condition and the end of the command. -/
def closing (make : Condition → Statement) : Reader Statement := do
  let filter ← condition
  terminator
  return make filter

theorem bind_eq_ok {First Second : Type} {reader : Reader First} {next : First → Reader Second}
    {tokens rest : List Token} {result : Second}
    (read : (reader >>= next) tokens = .ok (result, rest)) :
    ∃ first between, reader tokens = .ok (first, between) ∧
      next first between = .ok (result, rest) := by
  cases outcome : reader tokens with
  | error error =>
      change (do let found ← reader tokens; next found.1 found.2) = _ at read
      rw [outcome] at read
      cases read
  | ok found =>
      obtain ⟨first, between⟩ := found
      rw [bind_ok outcome] at read
      exact ⟨first, between, rfl, read⟩

theorem takeKeyword_of_keyword {word : Keyword} {tokens rest : List Token}
    (read : keyword word tokens = .ok ((), rest)) : takeKeyword word tokens = .ok (true, rest) := by
  obtain ⟨token, between, first, spelled⟩ := bind_eq_ok read
  cases tokens with
  | nil => cases first
  | cons head others =>
      cases first
      rw [takeKeyword, takeIf_cons]
      split at spelled
      · rename_i isSpelled
        cases spelled
        rw [if_pos isSpelled, isSpelled]
      · cases spelled

variable {command tokens : List Token} {make : Condition → Statement}

/-- What has been opened is read on with a condition and a semicolon. -/
theorem statement_of_opening (opened : opening command = .ok (make, tokens)) :
    statement command = closing make tokens := by
  obtain ⟨token, afterVerb, verb, opened⟩ := bind_eq_ok opened
  rw [statement, bind_ok verb]
  rcases known : Verb.ofText? token.spelling with _ | kind
  · simp only [known] at opened
    cases opened
  simp only [known] at opened ⊢
  cases kind with
  | select =>
      obtain ⟨chosen, afterColumns, columns, opened⟩ := bind_eq_ok opened
      obtain ⟨⟨⟩, afterFrom, source, opened⟩ := bind_eq_ok opened
      obtain ⟨table, afterTable, named, opened⟩ := bind_eq_ok opened
      obtain ⟨⟨⟩, afterWhere, filter, opened⟩ := bind_eq_ok opened
      cases opened
      simp only [body, select, bind_assoc]
      rw [bind_ok columns, bind_ok source, bind_ok named, bind_ok (takeKeyword_of_keyword filter)]
      simp only [if_true, bind_assoc, pure_bind]
      rfl
  | update =>
      obtain ⟨table, afterTable, named, opened⟩ := bind_eq_ok opened
      obtain ⟨⟨⟩, afterSet, sets, opened⟩ := bind_eq_ok opened
      obtain ⟨changes, afterChanges, listed, opened⟩ := bind_eq_ok opened
      obtain ⟨⟨⟩, afterWhere, filter, opened⟩ := bind_eq_ok opened
      cases opened
      simp only [body, update, bind_assoc, pure_bind]
      rw [bind_ok named, bind_ok sets, bind_ok listed, bind_ok filter]
      rfl
  | delete =>
      obtain ⟨⟨⟩, afterFrom, source, opened⟩ := bind_eq_ok opened
      obtain ⟨table, afterTable, named, opened⟩ := bind_eq_ok opened
      obtain ⟨⟨⟩, afterWhere, filter, opened⟩ := bind_eq_ok opened
      cases opened
      simp only [body, delete, bind_assoc, pure_bind]
      rw [bind_ok source, bind_ok named, bind_ok filter]
      rfl
  | _ => cases opened

theorem terminator_eq_ok {rest : List Token} (read : terminator tokens = .ok ((), rest)) :
    tokens = [⟨";"⟩] ∧ rest = [] := by
  cases tokens with
  | nil => cases read
  | cons token others =>
      obtain ⟨_, _, got, read⟩ := bind_eq_ok read
      cases got
      by_cases ends : token.spelling = ";"
      · obtain ⟨spelling⟩ := token
        cases ends
        cases others with
        | nil =>
            cases read
            exact ⟨rfl, rfl⟩
        | cons extra others => cases read
      · simp only [ends] at read
        cases read

/-- Only the result counts, not the tokens that are left. -/
theorem map_fst_eq_ok_iff {α : Type} {outcome : Except Error (α × List Token)} {result : α} :
    outcome.map Prod.fst = .ok result ↔ ∃ rest, outcome = .ok (result, rest) := by
  constructor
  · intro read
    cases outcome with
    | error error => cases read
    | ok found =>
        cases read
        exact ⟨found.2, rfl⟩
  · rintro ⟨rest, rfl⟩
    rfl

theorem closing_eq_ok_iff {result : Statement} :
    (closing make tokens).map Prod.fst = .ok result ↔
      ∃ filter, Condition.read tokens = .ok (filter, [⟨";"⟩]) ∧ make filter = result := by
  rw [map_fst_eq_ok_iff]
  constructor
  · rintro ⟨rest, closed⟩
    obtain ⟨filter, between, condition, closed⟩ := bind_eq_ok closed
    obtain ⟨⟨⟩, behind, ends, closed⟩ := bind_eq_ok closed
    cases closed
    obtain ⟨rfl, rfl⟩ := terminator_eq_ok ends
    exact ⟨filter, condition, rfl⟩
  · rintro ⟨filter, read, rfl⟩
    have condition : condition tokens = .ok (filter, [⟨";"⟩]) := read
    rw [closing, bind_ok condition]
    exact ⟨[], rfl⟩

/-- Behind `WHERE` the command is accepted exactly if a tree of the grammar within the limits has
the tokens up to the final semicolon, and then the statement is made of the condition of that tree.
There is at most one such tree. Its condition joins the operands of every chain from the right, and
its leaves are the comparisons in the order of the tokens. -/
theorem statement_accepts_derived (opened : opening command = .ok (make, tokens)) :
    (∀ result, (statement command).map Prod.fst = .ok result ↔
      ∃ clause : Condition.Clause, clause.tokens ++ [⟨";"⟩] = tokens ∧
        clause.comparisons.length ≤ maxConditionTerms ∧ clause.nesting ≤ maxConditionDepth ∧
        make clause.condition = result) ∧
    (∀ first second : Condition.Clause, first.tokens ++ [⟨";"⟩] = tokens →
      second.tokens ++ [⟨";"⟩] = tokens → first = second) ∧
    ∀ clause : Condition.Clause,
      clause.condition = Condition.chain clause.first.condition
        (clause.further.map fun (connective, operand) => (connective, operand.condition)) ∧
      (Condition.Operand.enclosed clause).condition = clause.condition ∧
      clause.condition.leaves = clause.comparisons.map Condition.Comparison.condition := by
  refine ⟨fun result => ?_, fun first second spelled alsoSpelled => ?_, fun clause =>
    ⟨clause.condition_eq_chain, by rw [Condition.Operand.condition], clause.leaves_condition⟩⟩
  · rw [statement_of_opening opened, closing_eq_ok_iff]
    constructor
    · rintro ⟨filter, read, rfl⟩
      obtain ⟨clause, spelled, few, shallow, rfl⟩ := Condition.read_semicolon_iff.mp read
      exact ⟨clause, spelled, few, shallow, rfl⟩
    · rintro ⟨clause, spelled, few, shallow, rfl⟩
      exact ⟨_, Condition.read_semicolon_iff.mpr ⟨clause, spelled, few, shallow, rfl⟩, rfl⟩
  · exact (first.eq_of_tokens second Condition.endsClause_semicolon Condition.endsClause_semicolon
      (spelled.trans alsoSpelled.symm)).1

theorem parse_accepts_derived :
    Statement.parse "DELETE FROM T WHERE (t.a==1 or b LiKe 'x')AND or>2;" =
      .ok (.delete "t" (.combine .and
        (.combine .or (.comparison "a" .equal ⟨"1", .integer⟩)
          (.comparison "b" .like ⟨"'x'", .string⟩))
        (.comparison "or" .greater ⟨"2", .integer⟩))) := by
  have scanned : Token.scan "DELETE FROM T WHERE (t.a==1 or b LiKe 'x')AND or>2;" =
      ["DELETE", "FROM", "T", "WHERE", "(", "t.a", "==", "1", "or", "b", "LiKe", "'x'", ")", "AND",
        "or", ">", "2", ";"].map Token.mk := by
    decide +kernel
  have opened : opening (["DELETE", "FROM", "T", "WHERE", "(", "t.a", "==", "1", "or", "b", "LiKe",
      "'x'", ")", "AND", "or", ">", "2", ";"].map Token.mk) =
        .ok (.delete "t", ["(", "t.a", "==", "1", "or", "b", "LiKe", "'x'", ")", "AND", "or", ">",
          "2", ";"].map Token.mk) := by
    apply (bind_ok (next_cons _ _ _) _).trans
    apply (bind_ok (keyword_cons .from _) _).trans
    apply (bind_ok (name_cons_lowercase (by decide) _ _) _).trans
    exact bind_ok (keyword_cons .where _) _
  let first : Condition.Comparison :=
    ⟨⟨some "t", "a"⟩, .equal, "==", "1", ⟨by simp; decide, by decide⟩, rfl, by decide +kernel⟩
  let second : Condition.Comparison :=
    ⟨⟨none, "b"⟩, .like, "LiKe", "'x'", ⟨nofun, by decide⟩, by decide +kernel, by decide +kernel⟩
  let third : Condition.Comparison :=
    ⟨⟨none, "or"⟩, .greater, ">", "2", ⟨nofun, by decide⟩, rfl, by decide +kernel⟩
  let inner : Condition.Clause :=
    .joined (.comparison first) ⟨.or, "or", by decide +kernel⟩ (.alone (.comparison second))
  let whole : Condition.Clause :=
    .joined (.enclosed inner) ⟨.and, "AND", by decide +kernel⟩ (.alone (.comparison third))
  rw [Statement.parse, scanned]
  apply ((statement_accepts_derived opened).1 _).mpr
  exact ⟨whole, by decide +kernel, by decide +kernel, by decide +kernel, by decide +kernel⟩

end Reader

end TextTables
