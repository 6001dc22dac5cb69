import TextTables.Proofs.Text.Slices

/-!
# Cutting tokens off a text

Outside literals a text begins with a literal, with punctuation, with a comparator of two characters
or with a word. Each of these is scanned by itself where nothing of what stands behind it belongs to
it: behind a word there is no further character of a word, and behind a character that takes an
equals sign there is none.
-/

namespace TextTables

open Text

namespace Token

theorem not_special_of_isPunctuation {c : Char} (punctuation : isPunctuation c) :
    isBlank c = false ∧ c ≠ quote := by
  simp only [isPunctuation, List.mem_cons, List.not_mem_nil, or_false, decide_eq_true_eq]
    at punctuation
  rcases punctuation with rfl | rfl | rfl | rfl | rfl | rfl | rfl <;> decide

theorem not_special_of_takesEquals {c : Char} (takes : takesEquals c) :
    isBlank c = false ∧ c ≠ quote := by
  simp only [takesEquals, List.mem_cons, List.not_mem_nil, or_false, decide_eq_true_eq] at takes
  rcases takes with rfl | rfl | rfl | rfl <;> decide

variable {inLiteral : Bool} {spelling word text piece rest : List Char} {blank c : Char}

/-! ## Pieces -/

/-- The tokens in front of the first quote: one literal, or all that stands outside. -/
theorem ofPieces_cons (inLiteral : Bool) (piece : List Char) (pieces : List (List Char)) :
    ofPieces inLiteral (piece :: pieces) =
      ofPieces inLiteral [piece] ++ ofPieces (!inLiteral) pieces := by
  cases inLiteral <;> simp [ofPieces]

/-- The tokens of a text that begins inside or outside a literal. -/
def scanFrom (inLiteral : Bool) (text : List Char) : List Token :=
  ofPieces inLiteral (text.splitOn quote)

theorem scanFrom_plain (quoteFree : quote ∉ piece) (inLiteral : Bool) :
    scanFrom inLiteral piece = ofPieces inLiteral [piece] := by
  rw [scanFrom, List.splitOn_eq_singleton quoteFree]

theorem scanFrom_quoted (quoteFree : quote ∉ piece) (inLiteral : Bool) (rest : List Char) :
    scanFrom inLiteral (piece ++ quote :: rest) =
      ofPieces inLiteral [piece] ++ scanFrom (!inLiteral) rest := by
  rw [scanFrom, List.splitOn_append_cons_self_of_not_mem quoteFree, ofPieces_cons, scanFrom]

theorem scanFrom_outside (quoteFree : quote ∉ piece) : scanFrom false piece = ofPlain piece := by
  rw [scanFrom_plain quoteFree]
  exact List.append_nil _

/-- In front of the first quote a text is scanned as if it ended there. -/
theorem scanFrom_outside_quoted (quoteFree : quote ∉ piece) (rest : List Char) :
    scanFrom false (piece ++ quote :: rest) = ofPlain piece ++ scanFrom true rest := by
  rw [scanFrom_quoted quoteFree, ← scanFrom_plain quoteFree, scanFrom_outside quoteFree]
  rfl

/-- A literal that is open is the first token. -/
theorem scanFrom_inside_quoted (quoteFree : quote ∉ piece) (rest : List Char) :
    scanFrom true (piece ++ quote :: rest) = ofLiteral piece :: scanFrom false rest :=
  scanFrom_quoted quoteFree true rest

theorem quoteFree_cons (quoteFree : quote ∉ c :: rest) : (c == quote) = false ∧ quote ∉ rest := by
  rw [List.mem_cons, not_or] at quoteFree
  exact ⟨beq_eq_false_iff_ne.mpr (Ne.symm quoteFree.1), quoteFree.2⟩

/-- What stands in front of the first quote stands in the first piece. -/
theorem splitOn_append (quoteFree : quote ∉ word) (rest : List Char) :
    (word ++ rest).splitOn quote = (rest.splitOn quote).modifyHead (word ++ ·) := by
  induction word with
  | nil => cases split : rest.splitOn quote <;> simp [split]
  | cons c others inductionHypothesis =>
      obtain ⟨here, later⟩ := quoteFree_cons quoteFree
      rw [List.cons_append, List.splitOn_cons_eq_if_modifyHead, here, inductionHypothesis later]
      cases rest.splitOn quote <;> rfl

/-! ## Words -/

theorem words_append_blank (dark : isBlank blank) (text rest : List Char) :
    words (text ++ blank :: rest) = words text ++ words rest := by
  rw [words, List.splitOnP_append_cons _ _ dark, List.filter_append, words, words]

theorem words_blank (dark : isBlank blank) (rest : List Char) :
    words (blank :: rest) = words rest :=
  words_append_blank dark [] rest

theorem words_solid (nonempty : word ≠ []) (solid : ∀ c ∈ word, isBlank c = false) :
    words word = [word] := by
  rw [words, List.splitOnP_eq_singleton solid]
  simp [nonempty]

/-- What stands between two spaces is a word. -/
theorem words_apart (nonempty : word ≠ []) (solid : ∀ c ∈ word, isBlank c = false)
    (rest : List Char) : words (' ' :: (word ++ ' ' :: rest)) = word :: words rest := by
  rw [words_blank (by decide), words_append_blank (by decide), words_solid nonempty solid]
  rfl

/-! ## Tokens -/

/-- A character that words can hold. An exclamation mark is one, though not in front of an equals
sign. -/
def isOrdinary (c : Char) : Bool :=
  !isBlank c && !isPunctuation c && c != quote

theorem isOrdinary_iff :
    isOrdinary c ↔ isBlank c = false ∧ isPunctuation c = false ∧ c ≠ quote := by
  simp [isOrdinary, and_assoc]

/-- An equals sign that follows belongs to the last character of the text. -/
def joins (text rest : List Char) : Bool :=
  text.getLast?.any takesEquals && rest.head? == some '='

/-- A word ends in front of the text. -/
def endsWord : List Char → Bool
  | [] => true
  | c :: rest => !isOrdinary c || joins [c] rest

/-- The spelling of a token to which nothing of the rest belongs. -/
inductive Cuts : List Char → List Char → Prop
  | literal {body rest : List Char} (quoteFree : quote ∉ body) :
      Cuts (quote :: body ++ [quote]) rest
  | comparator {c : Char} {rest : List Char} (takes : takesEquals c) : Cuts [c, '='] rest
  | punctuation {c : Char} {rest : List Char} (punctuation : isPunctuation c)
      (apart : joins [c] rest = false) : Cuts [c] rest
  | word {word rest : List Char} (nonempty : word ≠ []) (ordinary : ∀ c ∈ word, isOrdinary c)
      (ends : endsWord rest) (apart : joins word rest = false) : Cuts word rest

theorem joins_of_head?_ne (other : rest.head? ≠ some '=') : joins text rest = false := by
  simp [joins, other]

theorem joins_cons (nonempty : word ≠ []) (c : Char) (rest : List Char) :
    joins (c :: word) rest = joins word rest := by
  rw [joins, joins, List.getLast?_cons_of_ne_nil nonempty]

/-- A word ends in front of blanks, punctuation and quotes. -/
theorem endsWord_of_head? (special : ∀ c ∈ rest.head?, isOrdinary c = false) : endsWord rest := by
  cases rest with
  | nil => rfl
  | cons c others => simp [endsWord, special c rfl]

/-- Nothing is joined to a word but an equals sign behind its last character. -/
theorem setApart_append (ordinary : ∀ c ∈ word, isOrdinary c) (apart : joins word rest = false) :
    setApart (word ++ rest) = word ++ setApart rest := by
  induction word with
  | nil => rfl
  | cons c others inductionHypothesis =>
      have plain := (isOrdinary_iff.mp (ordinary c List.mem_cons_self)).2.1
      have alone : (takesEquals c && (others ++ rest).head? == some '=') = false := by
        cases others with
        | nil => exact apart
        | cons next further =>
            have nextPlain := (isOrdinary_iff.mp (ordinary next (by simp))).2.1
            have other : next ≠ '=' := by
              rintro rfl
              exact absurd nextPlain (by decide)
            simp [other]
      have later : joins others rest = false := by
        cases others with
        | nil => rfl
        | cons next further => rwa [joins_cons (List.cons_ne_nil _ _)] at apart
      rw [List.cons_append, setApart_cons, alone, plain,
        inductionHypothesis (fun c member => ordinary c (.tail _ member)) later]
      rfl

/-- Where a word ends, a blank is set in front of the text, or the text is over. -/
theorem setApart_of_endsWord (ends : endsWord rest) (quoteFree : quote ∉ rest) :
    setApart rest = [] ∨ ∃ blank later, isBlank blank ∧ setApart rest = blank :: later := by
  cases rest with
  | nil => exact .inl rfl
  | cons c others =>
      right
      rw [setApart_cons]
      split
      · exact ⟨' ', _, by decide, rfl⟩
      · rename_i alone
        split
        · exact ⟨' ', _, by decide, rfl⟩
        · rename_i plain
          have unjoined : joins [c] others = false := by simpa [joins] using alone
          have other : c ≠ quote := fun same => quoteFree (same ▸ List.mem_cons_self)
          have dark : isBlank c := by
            simpa [endsWord, unjoined, isOrdinary, plain, other] using ends
          exact ⟨c, _, dark, rfl⟩

namespace Cuts

theorem ne_nil (cuts : Cuts spelling rest) : spelling ≠ [] := by
  cases cuts with
  | word nonempty => exact nonempty
  | _ => simp

/-- Only a literal has blanks and quotes. -/
theorem solid_or_literal (cuts : Cuts spelling rest) :
    (∀ c ∈ spelling, isBlank c = false ∧ c ≠ quote) ∨
      ∃ body, quote ∉ body ∧ spelling = quote :: body ++ [quote] := by
  cases cuts with
  | @literal body _ quoteFree => exact .inr ⟨body, quoteFree, rfl⟩
  | comparator takes =>
      have equals : isBlank '=' = false ∧ '=' ≠ quote := by decide
      exact .inl (List.forall_mem_cons.mpr
        ⟨not_special_of_takesEquals takes, List.forall_mem_singleton.mpr equals⟩)
  | punctuation punctuation =>
      exact .inl (List.forall_mem_singleton.mpr (not_special_of_isPunctuation punctuation))
  | word nonempty ordinary =>
      left
      intro c member
      obtain ⟨solid, -, other⟩ := isOrdinary_iff.mp (ordinary c member)
      exact ⟨solid, other⟩

/-- Only what is in front of the next quote counts. -/
theorem before_quote (cuts : Cuts spelling (piece ++ quote :: rest)) : Cuts spelling piece := by
  have head : ∀ piece : List Char, joins spelling (piece ++ quote :: rest) = false →
      joins spelling piece = false := by
    intro piece apart
    cases piece with
    | nil => exact joins_of_head?_ne nofun
    | cons c others => exact apart
  cases cuts with
  | literal quoteFree => exact .literal quoteFree
  | comparator takes => exact .comparator takes
  | punctuation punctuation apart => exact .punctuation punctuation (head piece apart)
  | word nonempty ordinary ends apart =>
      refine .word nonempty ordinary ?_ (head piece apart)
      cases piece with
      | nil => rfl
      | cons c others =>
          cases others with
          | nil => simpa [endsWord, joins, quote] using ends
          | cons next further => exact ends

/-- A text in front of the first quote begins with its first token. -/
theorem ofPlain_append (cuts : Cuts spelling rest) (outside : quote ∉ spelling)
    (quoteFree : quote ∉ rest) :
    ofPlain (spelling ++ rest) = ⟨String.ofList spelling⟩ :: ofPlain rest := by
  have cut : words (setApart (spelling ++ rest)) = spelling :: words (setApart rest) := by
    cases cuts with
    | literal => exact absurd List.mem_cons_self outside
    | @comparator c _ takes =>
        have solid := (not_special_of_takesEquals takes).1
        have spaced : setApart ([c, '='] ++ rest) = ' ' :: ([c, '='] ++ ' ' :: setApart rest) := by
          simp [setApart_cons, takes]
        rw [spaced, words_apart (by simp) (by simpa [solid] using by decide)]
    | @punctuation c _ punctuation apart =>
        have solid := (not_special_of_isPunctuation punctuation).1
        have alone : (takesEquals c && rest.head? == some '=') = false := apart
        have spaced : setApart ([c] ++ rest) = ' ' :: ([c] ++ ' ' :: setApart rest) := by
          simp [setApart_cons, alone, punctuation]
        rw [spaced, words_apart (by simp) (by simpa using solid)]
    | word nonempty ordinary ends apart =>
        have solid := fun c member => (isOrdinary_iff.mp (ordinary c member)).1
        rw [setApart_append ordinary apart]
        rcases setApart_of_endsWord ends quoteFree with nothing | ⟨blank, later, dark, begins⟩
        · rw [nothing, List.append_nil, words_solid nonempty solid]
          rfl
        · rw [begins, words_append_blank dark, words_blank dark, words_solid nonempty solid]
          rfl
  rw [ofPlain, cut]
  rfl

/-- A token is scanned by itself, and the scan goes on behind it. -/
theorem scanFrom_append (cuts : Cuts spelling rest) :
    scanFrom false (spelling ++ rest) = ⟨String.ofList spelling⟩ :: scanFrom false rest := by
  rcases cuts.solid_or_literal with solid | ⟨body, quoteFree, rfl⟩
  · have outside : quote ∉ spelling := fun quoted => (solid quote quoted).2 rfl
    by_cases further : quote ∈ rest
    · obtain ⟨piece, later, rfl, quoteFree⟩ := List.eq_append_cons_of_mem further
      have bare : quote ∉ spelling ++ piece := by simp [outside, quoteFree]
      rw [← List.append_assoc, scanFrom_outside_quoted bare, scanFrom_outside_quoted quoteFree,
        cuts.before_quote.ofPlain_append outside quoteFree]
      rfl
    · have bare : quote ∉ spelling ++ rest := by simp [outside, further]
      rw [scanFrom_outside bare, scanFrom_outside further, cuts.ofPlain_append outside further]
  · have opened := scanFrom_outside_quoted (List.not_mem_nil (a := quote)) (body ++ quote :: rest)
    rw [scanFrom_inside_quoted quoteFree] at opened
    rw [List.append_assoc]
    exact opened

end Cuts

end Token

end TextTables
