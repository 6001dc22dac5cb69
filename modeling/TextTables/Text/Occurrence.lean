/-!
# Occurrence of one text in another
-/

namespace TextTables.Text

/-- The pattern stands somewhere in the text, in one piece. -/
def occursIn (pattern : List Char) : List Char → Bool
  | [] => pattern.isEmpty
  | c :: rest => pattern.isPrefixOf (c :: rest) || occursIn pattern rest

theorem occursIn_iff {pattern text : List Char} :
    occursIn pattern text ↔ pattern <:+: text := by
  induction text with
  | nil => simp [occursIn]
  | cons c rest inductionHypothesis =>
      simp [occursIn, List.infix_cons_iff, inductionHypothesis]

end TextTables.Text
