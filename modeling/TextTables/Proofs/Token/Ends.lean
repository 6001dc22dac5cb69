import TextTables.Proofs.Token.Spacing

/-!
# Where tokens begin and end

The first character of a text begins its first token, and the last one ends its last token, unless
they are blank. A literal that is never closed is the last token, and a line feed in a literal is in
its token.
-/

namespace TextTables

open Text

namespace Token

/-- The characters of the token. -/
def characters (token : Token) : List Char :=
  token.spelling.toList

variable {inLiteral : Bool} {text front rest : List Char} {c : Char}

/-! ## Words -/

/-- Behind blanks the first word begins with the first character. -/
theorem words_cons (solid : isBlank c = false) (rest : List Char) :
    ∃ word others, words (c :: rest) = (c :: word) :: others := by
  obtain ⟨piece, pieces, split⟩ := List.exists_cons_of_ne_nil (List.splitOnP_ne_nil isBlank rest)
  have whole : (c :: rest).splitOnP isBlank = (c :: piece) :: pieces := by
    rw [List.splitOnP_cons_eq_if_modifyHead, solid, if_neg Bool.false_ne_true, split,
      List.modifyHead_cons]
  have kept : (!(c :: piece).isEmpty) = true := rfl
  rw [words, whole, List.filter_cons, if_pos kept]
  exact ⟨_, _, rfl⟩

/-- The last word ends with the last character. -/
theorem words_concat (solid : isBlank c = false) (front : List Char) :
    ∃ others word, words (front ++ [c]) = others ++ [word ++ [c]] := by
  have split : ∃ pieces piece, (front ++ [c]).splitOnP isBlank = pieces ++ [piece ++ [c]] := by
    induction front with
    | nil => exact ⟨[], [], List.splitOnP_eq_singleton (by simpa using solid)⟩
    | cons first others inductionHypothesis =>
        obtain ⟨pieces, piece, split⟩ := inductionHypothesis
        rw [List.cons_append, List.splitOnP_cons_eq_if_modifyHead, split]
        split
        · exact ⟨[] :: pieces, piece, rfl⟩
        · cases pieces with
          | nil => exact ⟨[], first :: piece, rfl⟩
          | cons next further => exact ⟨(first :: next) :: further, piece, rfl⟩
  obtain ⟨pieces, piece, split⟩ := split
  refine ⟨pieces.filter (fun word => !word.isEmpty), piece, ?_⟩
  rw [words, split, List.filter_append]
  congr 1
  simp

theorem isBlank_of_mem_space : ∀ c ∈ [' '], isBlank c := by
  simp only [List.forall_mem_singleton]
  decide

theorem setApart_first (c : Char) (rest : List Char) :
    ∃ front back, (∀ c ∈ front, isBlank c) ∧ setApart (c :: rest) = front ++ c :: back := by
  rw [setApart_cons]
  split
  · exact ⟨[' '], _, isBlank_of_mem_space, rfl⟩
  · split
    · exact ⟨[' '], _, isBlank_of_mem_space, rfl⟩
    · exact ⟨[], _, by simp, rfl⟩

theorem setApart_last (last : text.getLast? = some c) :
    ∃ front back, (∀ c ∈ back, isBlank c) ∧ setApart text = front ++ c :: back := by
  induction text using setApart.induct with
  | case1 => cases last
  | case2 only punctuation =>
      cases last
      exact ⟨[' '], [' '], isBlank_of_mem_space, by simp [setApart, punctuation]⟩
  | case3 only plain =>
      cases last
      exact ⟨[], [], by simp, by simp [setApart, plain]⟩
  | case4 first next others joined inductionHypothesis =>
      rw [setApart, if_pos joined]
      cases others with
      | nil =>
          cases last
          exact ⟨[' ', first], [' '], isBlank_of_mem_space, rfl⟩
      | cons third further =>
          obtain ⟨front, back, dark, apart⟩ := inductionHypothesis (by simpa using last)
          exact ⟨' ' :: first :: next :: ' ' :: front, back, dark, by rw [apart]; rfl⟩
  | case5 first next others apart punctuation inductionHypothesis =>
      obtain ⟨front, back, dark, later⟩ := inductionHypothesis (by simpa using last)
      rw [setApart, if_neg apart, if_pos punctuation, later]
      exact ⟨' ' :: first :: ' ' :: front, back, dark, rfl⟩
  | case6 first next others apart plain inductionHypothesis =>
      obtain ⟨front, back, dark, later⟩ := inductionHypothesis (by simpa using last)
      rw [setApart, if_neg apart, if_neg plain, later]
      exact ⟨first :: front, back, dark, rfl⟩

/-! ## Tokens -/

theorem words_blanks (dark : ∀ c ∈ front, isBlank c) (rest : List Char) :
    words (front ++ rest) = words rest := by
  induction front with
  | nil => rfl
  | cons first others inductionHypothesis =>
      have here := words_append_blank (dark first List.mem_cons_self) [] (others ++ rest)
      exact here.trans (inductionHypothesis fun c member => dark c (.tail _ member))

theorem ofPlain_first (solid : isBlank c = false) (rest : List Char) :
    ∃ token others, ofPlain (c :: rest) = token :: others ∧ token.characters.head? = some c := by
  obtain ⟨front, back, dark, apart⟩ := setApart_first c rest
  obtain ⟨word, others, cut⟩ := words_cons solid back
  rw [ofPlain, apart, words_blanks dark, cut]
  exact ⟨_, _, rfl, by simp [characters]⟩

theorem ofPlain_last (solid : isBlank c = false) (last : text.getLast? = some c) :
    ∃ others token, ofPlain text = others ++ [token] ∧ token.characters.getLast? = some c := by
  obtain ⟨front, back, dark, apart⟩ := setApart_last last
  obtain ⟨others, word, cut⟩ := words_concat solid front
  have ends : words (front ++ c :: back) = others ++ [word ++ [c]] := by
    cases back with
    | nil => exact cut
    | cons blank blanks =>
        have nothing := words_blanks (fun c member => dark c (.tail _ member)) []
        rw [List.append_nil] at nothing
        rw [List.append_cons, words_append_blank (dark blank List.mem_cons_self), cut, nothing]
        exact List.append_nil _
  rw [ofPlain, apart, ends, List.map_append]
  exact ⟨_, _, rfl, by simp [characters]⟩

/-- The tokens of a text that begins in a literal begin with it. -/
theorem scanFrom_literal (text : List Char) :
    ∃ body others, scanFrom true text = ofLiteral body :: others := by
  obtain ⟨piece, pieces, split⟩ := List.exists_cons_of_ne_nil (List.splitOn_ne_nil quote text)
  rw [scanFrom, split, ofPieces, if_pos rfl]
  exact ⟨_, _, rfl⟩

theorem scanFrom_first (first : text.head? = some c) (solid : isBlank c = false) :
    ∃ token others, scanFrom false text = token :: others ∧
      token.characters.head? = some c := by
  induction text using cut_induction quote with
  | whole piece quoteFree =>
      cases piece with
      | nil => cases first
      | cons other rest =>
          cases first
          obtain ⟨token, others, cut, begins⟩ := ofPlain_first solid rest
          rw [scanFrom_plain quoteFree, ofPieces, if_neg Bool.false_ne_true, cut]
          exact ⟨token, _, rfl, begins⟩
  | cut piece rest quoteFree =>
      rw [scanFrom_quoted quoteFree]
      cases piece with
      | nil =>
          cases first
          obtain ⟨body, others, cut⟩ := scanFrom_literal rest
          exact ⟨_, others, cut, by simp [characters, ofLiteral]⟩
      | cons other further =>
          cases first
          obtain ⟨token, others, cut, begins⟩ := ofPlain_first solid further
          rw [ofPieces, if_neg Bool.false_ne_true, cut]
          exact ⟨token, _, rfl, begins⟩

theorem scanFrom_last (last : text.getLast? = some c) (solid : isBlank c = false)
    (outside : endsInside inLiteral text = false) :
    ∃ others token, scanFrom inLiteral text = others ++ [token] ∧
      token.characters.getLast? = some c := by
  induction text using cut_induction quote generalizing inLiteral with
  | whole piece quoteFree =>
      rw [endsInside_of_quoteFree quoteFree] at outside
      subst outside
      obtain ⟨others, token, cut, ends⟩ := ofPlain_last solid last
      rw [scanFrom_plain quoteFree]
      exact ⟨others, token, by simp [ofPieces, cut], ends⟩
  | cut piece rest quoteFree inductionHypothesis =>
      rw [endsInside_quoted quoteFree] at outside
      rw [scanFrom_quoted quoteFree]
      cases rest with
      | nil =>
          have inside : inLiteral = true := by simpa using outside
          subst inside
          obtain rfl : quote = c := by simpa using last
          refine ⟨[], ofLiteral piece, rfl, ?_⟩
          rw [characters, ofLiteral, String.toList_ofList]
          exact List.getLast?_concat
      | cons next further =>
          obtain ⟨others, token, cut, ends⟩ := inductionHypothesis (by simpa using last) outside
          rw [cut, ← List.append_assoc]
          exact ⟨_, token, rfl, ends⟩

/-- The last character of a trimmed text ends its last token. -/
theorem exists_last_token {c : Char} (closed : endsInside false text = false)
    (last : (trim text).getLast? = some c) :
    ∃ others token, scanFrom false text = others ++ [token] ∧
      token.characters.getLast? = some c := by
  rw [← scanFrom_trim closed]
  exact scanFrom_last last (not_isBlank_of_getLast?_trim last) ((endsInside_trim text).trans closed)

theorem trim_eq_nil_iff (closed : endsInside false text = false) :
    trim text = [] ↔ scanFrom false text = [] := by
  constructor
  · intro empty
    rw [← scanFrom_trim closed, empty]
    rfl
  · intro nothing
    by_contra nonempty
    obtain ⟨c, last⟩ := Option.ne_none_iff_exists'.mp (mt List.getLast?_eq_none_iff.mp nonempty)
    obtain ⟨others, token, cut, -⟩ := exists_last_token closed last
    rw [nothing] at cut
    simp at cut

/-! ## Literals -/

/-- A literal that is never closed is the last token. -/
theorem scanFrom_unclosed (inside : endsInside inLiteral text) :
    ∃ others body, scanFrom inLiteral text = others ++ [ofLiteral body] := by
  induction text using cut_induction quote generalizing inLiteral with
  | whole piece quoteFree =>
      rw [endsInside_of_quoteFree quoteFree] at inside
      subst inside
      exact ⟨[], piece, scanFrom_plain quoteFree true⟩
  | cut piece rest quoteFree inductionHypothesis =>
      rw [endsInside_quoted quoteFree] at inside
      obtain ⟨others, body, cut⟩ := inductionHypothesis inside
      rw [scanFrom_quoted quoteFree, cut, ← List.append_assoc]
      exact ⟨_, body, rfl⟩

/-- What stands in a literal is in a token. -/
theorem mem_scanFrom (inside : endsInside inLiteral front) (solid : c ≠ quote)
    (rest : List Char) :
    ∃ token ∈ scanFrom inLiteral (front ++ c :: rest), c ∈ token.characters := by
  induction front using cut_induction quote generalizing inLiteral with
  | whole piece quoteFree =>
      rw [endsInside_of_quoteFree quoteFree] at inside
      subst inside
      obtain ⟨first, others, split⟩ := List.exists_cons_of_ne_nil (List.splitOn_ne_nil quote rest)
      have bare : quote ∉ piece ++ [c] := by simp [quoteFree, solid.symm]
      rw [List.append_cons, scanFrom, splitOn_append bare, split, List.modifyHead_cons,
        ofPieces, if_pos rfl]
      exact ⟨_, List.mem_cons_self, by simp [characters, ofLiteral]⟩
  | cut piece others quoteFree inductionHypothesis =>
      rw [endsInside_quoted quoteFree] at inside
      obtain ⟨token, member, holds⟩ := inductionHypothesis inside
      rw [List.append_assoc, List.cons_append, scanFrom_quoted quoteFree]
      exact ⟨token, List.mem_append_right _ member, holds⟩

/-- A text with no line feed in a literal is scanned line by line. -/
theorem scanFrom_lines (outside : endsInside false text = false)
    (oneLine : ∀ token ∈ scanFrom false text, '\n' ∉ token.characters) :
    (∀ line ∈ text.splitOn '\n', endsInside false line = false) ∧
      (text.splitOn '\n').flatMap (scanFrom false) = scanFrom false text := by
  induction text using cut_induction '\n' with
  | whole line free =>
      rw [List.splitOn_eq_singleton free]
      exact ⟨List.forall_mem_singleton.mpr outside, List.flatMap_singleton _ _⟩
  | cut line rest free inductionHypothesis =>
      have closed : endsInside false line = false := by
        by_contra inside
        have solid : '\n' ≠ quote := by decide
        obtain ⟨token, member, holds⟩ := mem_scanFrom (by simpa using inside) solid rest
        exact oneLine token member holds
      have dark : isBlank '\n' := by decide
      rw [endsInside_append, closed] at outside
      rw [scanFrom_append_blank dark closed] at oneLine ⊢
      obtain ⟨others, tokens⟩ := inductionHypothesis outside fun token member =>
        oneLine token (List.mem_append_right _ member)
      rw [List.splitOn_append_cons_self_of_not_mem free, List.flatMap_cons, tokens]
      exact ⟨List.forall_mem_cons.mpr ⟨closed, others⟩, rfl⟩

end Token

end TextTables
