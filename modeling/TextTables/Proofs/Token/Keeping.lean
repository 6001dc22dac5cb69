import TextTables.Proofs.Token.Respacing

/-!
# What scanning keeps

The tokens of a text, put together, are the text without the blanks outside its literals. Nothing
else is lost, and nothing is added but the quote that closes a last literal that is open. Every
literal is one token, with all that it holds.
-/

namespace TextTables

open Text

namespace Token

/-- The text without the blanks outside its literals. -/
def dense (inLiteral : Bool) : List Char → List Char
  | [] => []
  | c :: rest =>
      if inLiteral = false ∧ isBlank c then dense false rest
      else c :: dense (inLiteral != (c == quote)) rest

/-- The tokens put together, with nothing between them. -/
def unspaced (tokens : List Token) : List Char :=
  tokens.flatMap characters

example : dense false "a  >=\t1 AND b = 'x  y' ;".toList = "a>=1ANDb='x  y';".toList := by
  decide +kernel

variable {inLiteral : Bool} {token : Token} {tokens : List Token}
  {spelling text front body rest : List Char}

theorem dense_append (inLiteral : Bool) (text rest : List Char) :
    dense inLiteral (text ++ rest) =
      dense inLiteral text ++ dense (endsInside inLiteral text) rest := by
  induction text generalizing inLiteral with
  | nil => rfl
  | cons c others inductionHypothesis =>
      rw [List.cons_append, dense, dense, endsInside_cons]
      split
      · rename_i gap
        rw [inductionHypothesis, gap.1, beq_eq_false_iff_ne.mpr (ne_quote_of_isBlank gap.2)]
        rfl
      · rw [inductionHypothesis, List.cons_append]

/-- A literal keeps its blanks. -/
theorem dense_inside (quoteFree : quote ∉ body) : dense true body = body := by
  induction body with
  | nil => rfl
  | cons c others inductionHypothesis =>
      obtain ⟨other, later⟩ := quoteFree_cons quoteFree
      rw [dense, if_neg (by simp), other]
      exact congrArg _ (inductionHypothesis later)

theorem dense_solid (solid : ∀ c ∈ spelling, isBlank c = false ∧ c ≠ quote) :
    dense false spelling = spelling := by
  induction spelling with
  | nil => rfl
  | cons c others inductionHypothesis =>
      obtain ⟨bright, other⟩ := solid c List.mem_cons_self
      rw [dense, if_neg (by simp [bright]), beq_eq_false_iff_ne.mpr other]
      exact congrArg _ (inductionHypothesis fun c member => solid c (.tail _ member))

/-- A token has blanks only in a literal. -/
theorem Cuts.dense_append (cuts : Cuts spelling rest) (later : List Char) :
    dense false (spelling ++ later) = spelling ++ dense false later := by
  rw [Token.dense_append, cuts.closed]
  rcases cuts.solid_or_literal with solid | ⟨body, quoteFree, rfl⟩
  · rw [dense_solid solid]
  · have opened : dense false (quote :: body ++ [quote]) = quote :: dense true (body ++ [quote]) :=
      rfl
    rw [opened, Token.dense_append, dense_inside quoteFree, endsInside_of_quoteFree quoteFree]
    rfl

/-- A text that is written with tokens is dense but for the blanks between them. -/
theorem Writes.unspaced_eq (writes : Writes tokens text) : unspaced tokens = dense false text := by
  induction writes with
  | nil => rfl
  | blank dark later inductionHypothesis => rw [dense, if_pos ⟨rfl, dark⟩, inductionHypothesis]
  | token cuts later inductionHypothesis =>
      rw [cuts.dense_append, unspaced, List.flatMap_cons, ← unspaced, inductionHypothesis]

/-! ## Quotes -/

theorem endsInside_eq (inLiteral : Bool) (text : List Char) :
    endsInside inLiteral text = (inLiteral != decide (text.count quote % 2 = 1)) := by
  induction text generalizing inLiteral with
  | nil => simp
  | cons c others inductionHypothesis =>
      rw [endsInside_cons, inductionHypothesis, List.count_cons]
      cases c == quote <;> cases inLiteral <;> grind

theorem endsInside_eq_false_iff : endsInside false text = false ↔ text.count quote % 2 = 0 := by
  rw [endsInside_eq]
  simp

theorem endsInside_iff : endsInside false text ↔ text.count quote % 2 = 1 := by
  rw [endsInside_eq]
  simp

/-- Outside literals a quote opens a literal, which is scanned by itself. -/
theorem scanFrom_append_quoted (outside : endsInside inLiteral text = false) (rest : List Char) :
    scanFrom inLiteral (text ++ quote :: rest) =
      scanFrom inLiteral text ++ scanFrom true rest := by
  induction text using cut_induction quote generalizing inLiteral with
  | whole piece quoteFree =>
      rw [endsInside_of_quoteFree quoteFree] at outside
      subst outside
      rw [scanFrom_outside_quoted quoteFree, scanFrom_outside quoteFree]
  | cut piece others quoteFree inductionHypothesis =>
      rw [endsInside_quoted quoteFree] at outside
      rw [List.append_assoc, List.cons_append, scanFrom_quoted quoteFree,
        inductionHypothesis outside, scanFrom_quoted quoteFree, List.append_assoc]

/-- A literal that is open is the first token, up to the next quote or the end of the text. -/
theorem exists_scanFrom_literal (quoteFree : quote ∉ body) (ends : ∀ c ∈ rest.head?, c = quote) :
    ∃ after, scanFrom true (body ++ rest) = ofLiteral body :: after := by
  cases rest with
  | nil =>
      rw [List.append_nil, scanFrom_plain quoteFree]
      exact ⟨[], rfl⟩
  | cons c later =>
      obtain rfl := ends c rfl
      exact ⟨_, scanFrom_inside_quoted quoteFree later⟩

/-! ## Texts and their tokens -/

theorem dense_scanned (text : String) :
    dense false (scanned text) =
      dense false (trim text.toList) ++
        if text.toList.count quote % 2 = 1 then [quote] else [] := by
  rw [scanned, dense_append, endsInside_trim]
  by_cases inside : endsInside false text.toList
  · rw [if_pos inside, if_pos (endsInside_iff.mp inside), inside]
    rfl
  · rw [if_neg inside, if_neg (mt endsInside_iff.mpr inside)]
    rfl

/-- The tokens are the trimmed text without the blanks outside literals, with a quote for a literal
that is never closed. None is empty, and what a quote opens is one token up to the next quote. -/
theorem unspaced_scan (text : String) :
    unspaced (scan text) =
        dense false (trim text.toList) ++
          (if text.toList.count quote % 2 = 1 then [quote] else []) ∧
      (∀ token ∈ scan text, token.spelling ≠ "") ∧
      ∀ front body rest, trim text.toList = front ++ quote :: (body ++ rest) →
        front.count quote % 2 = 0 → quote ∉ body → (∀ c ∈ rest.head?, c = quote) →
          ∃ before after, scan text = before ++ ofLiteral body :: after ∧
            unspaced before = dense false front := by
  refine ⟨?_, fun token member empty => ?_, fun front body rest opens even quoteFree ends => ?_⟩
  · rw [(writes_scan text).unspaced_eq, dense_scanned]
  · exact (isProper_of_mem_scan member).ne_nil (by rw [characters, empty]; rfl)
  · have outside : endsInside false front = false := endsInside_eq_false_iff.mpr even
    obtain ⟨after, literal⟩ := exists_scanFrom_literal quoteFree ends
    refine ⟨scanFrom false front, after, ?_, ?_⟩
    · change scanFrom false (trim text.toList) = _
      rw [opens, scanFrom_append_quoted outside, literal]
    · exact (writes_iff.mpr ⟨outside, rfl⟩).unspaced_eq

/-- The last literal is never closed, and ends where the text is trimmed. -/
theorem unspaced_scan_unclosed :
    let text := "\n SELECT a ,'b  ;c'  ''d' e \t"
    let front := "SELECT a ,'b  ;c'  ''d".toList
    trim text.toList = front ++ quote :: (" e".toList ++ []) ∧ front.count quote % 2 = 0 ∧
      quote ∉ " e".toList ∧ unspaced (scan text) = "SELECTa,'b  ;c'''d' e'".toList ∧
      ∃ before after, scan text = before ++ ofLiteral " e".toList :: after ∧
        unspaced before = "SELECTa,'b  ;c'''d".toList := by
  intro text front
  have opens : trim text.toList = front ++ quote :: (" e".toList ++ []) := by decide +kernel
  have even : front.count quote % 2 = 0 := by decide +kernel
  have quoteFree : quote ∉ " e".toList := by decide
  have before : dense false front = "SELECTa,'b  ;c'''d".toList := by decide +kernel
  have whole : dense false (trim text.toList) ++
      (if text.toList.count quote % 2 = 1 then [quote] else []) =
        "SELECTa,'b  ;c'''d' e'".toList := by decide +kernel
  obtain ⟨characters, -, literals⟩ := unspaced_scan text
  exact ⟨opens, even, quoteFree, characters.trans whole,
    before ▸ literals front _ [] opens even quoteFree nofun⟩

end Token

end TextTables
