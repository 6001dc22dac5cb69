import TextTables.Proofs.Token.Ends

/-!
# Writing tokens

A text is written with tokens and blanks if it consists of them and every token is cut off in front
of what follows it. The tokens are then those that are scanned. Every text whose literals are closed
is written in this way, so that what holds of its tokens is proved along the text.
-/

namespace TextTables

open Text

namespace Token

variable {token first second : Token} {tokens : List Token}
  {spelling text rest : List Char} {c : Char}

@[simp]
theorem characters_ofList (spelling : List Char) :
    characters ⟨String.ofList spelling⟩ = spelling :=
  String.toList_ofList

@[simp]
theorem ofList_characters (token : Token) : (⟨String.ofList token.characters⟩ : Token) = token := by
  rw [characters, String.ofList_toList]

theorem characters_ofLiteral (body : List Char) :
    (ofLiteral body).characters = quote :: body ++ [quote] :=
  characters_ofList _

/-! ## Texts and their tokens -/

/-- The text consists of the tokens, each in front of something that does not belong to it, and of
blanks between them. -/
inductive Writes : List Token → List Char → Prop
  | nil : Writes [] []
  | blank {tokens : List Token} {c : Char} {rest : List Char} (dark : isBlank c)
      (later : Writes tokens rest) : Writes tokens (c :: rest)
  | token {token : Token} {tokens : List Token} {rest : List Char}
      (cuts : Cuts token.characters rest) (later : Writes tokens rest) :
      Writes (token :: tokens) (token.characters ++ rest)

/-- Behind a token the text is outside literals again. -/
theorem Cuts.endsInside_append (cuts : Cuts spelling rest) (later : List Char) :
    endsInside false (spelling ++ later) = endsInside false later := by
  rcases cuts.solid_or_literal with solid | ⟨body, quoteFree, rfl⟩
  · have outside : quote ∉ spelling := fun quoted => (solid quote quoted).2 rfl
    rw [Token.endsInside_append, endsInside_of_quoteFree outside]
  · rw [List.append_assoc, List.cons_append, endsInside_cons, beq_self_eq_true, Bool.bne_true]
    exact endsInside_quoted quoteFree _ later

theorem Cuts.closed (cuts : Cuts spelling rest) : endsInside false spelling = false := by
  simpa using cuts.endsInside_append []

namespace Writes

theorem closed (writes : Writes tokens text) : endsInside false text = false := by
  induction writes with
  | nil => rfl
  | blank dark later inductionHypothesis => rw [endsInside_cons_blank dark, inductionHypothesis]
  | token cuts later inductionHypothesis =>
      rw [cuts.endsInside_append, inductionHypothesis]

theorem scanFrom_eq (writes : Writes tokens text) : scanFrom false text = tokens := by
  induction writes with
  | nil => rfl
  | blank dark later inductionHypothesis => rw [scanFrom_blank dark, inductionHypothesis]
  | token cuts later inductionHypothesis =>
      rw [cuts.scanFrom_append, ofList_characters, inductionHypothesis]

/-- The blanks at the two ends make no difference. -/
theorem scan_eq (writes : Writes tokens text) : scan (String.ofList text) = tokens := by
  rw [scan_eq_scanFrom (by rw [String.toList_ofList, writes.closed]), String.toList_ofList,
    writes.scanFrom_eq]

theorem blanks {gap : List Char} (dark : ∀ c ∈ gap, isBlank c) (later : Writes tokens rest) :
    Writes tokens (gap ++ rest) := by
  induction gap with
  | nil => exact later
  | cons c others inductionHypothesis =>
      exact .blank (dark c List.mem_cons_self)
        (inductionHypothesis fun other member => dark other (.tail _ member))

theorem isBlank_of_nil (writes : Writes [] text) : ∀ c ∈ text, isBlank c := by
  generalize same : ([] : List Token) = tokens at writes
  induction writes with
  | nil => exact List.forall_mem_nil _
  | blank dark later inductionHypothesis =>
      exact List.forall_mem_cons.mpr ⟨dark, inductionHypothesis same⟩
  | token cuts later => cases same

/-- In front of the first token there are only blanks. -/
theorem exists_of_cons (writes : Writes (token :: tokens) text) :
    ∃ gap rest, (∀ c ∈ gap, isBlank c) ∧ text = gap ++ (token.characters ++ rest) ∧
      Writes tokens rest := by
  generalize same : token :: tokens = all at writes
  induction writes with
  | nil => cases same
  | @blank all c rest dark later inductionHypothesis =>
      obtain ⟨gap, rest, blanks, rfl, further⟩ := inductionHypothesis same
      exact ⟨c :: gap, rest, List.forall_mem_cons.mpr ⟨dark, blanks⟩, rfl, further⟩
  | token cuts later =>
      cases same
      exact ⟨[], _, List.forall_mem_nil _, rfl, later⟩

end Writes

/-- A text that no word ends in front of begins with a word. -/
theorem exists_word (ordinary : endsWord text = false) :
    ∃ word rest, text = word ++ rest ∧ Cuts word rest ∧ ∀ c ∈ word, isOrdinary c := by
  induction text with
  | nil => cases ordinary
  | cons c others inductionHypothesis =>
      simp only [endsWord, Bool.or_eq_false_iff, Bool.not_eq_false'] at ordinary
      obtain ⟨here, apart⟩ := ordinary
      by_cases ends : endsWord others
      · have alone : ∀ other ∈ [c], isOrdinary other := by simpa using here
        exact ⟨[c], others, rfl, .word (by simp) alone ends apart, alone⟩
      · obtain ⟨word, rest, rfl, cuts, further⟩ := inductionHypothesis (by simpa using ends)
        have whole : ∀ other ∈ c :: word, isOrdinary other :=
          List.forall_mem_cons.mpr ⟨here, further⟩
        refine ⟨c :: word, rest, rfl, ?_, whole⟩
        cases cuts with
        | word nonempty _ ends apart =>
            exact .word (by simp) whole ends (by rwa [joins_cons nonempty])
        | literal => exact absurd (further quote List.mem_cons_self) (by decide)
        | comparator => exact absurd (further '=' (by simp)) (by decide)
        | punctuation punctuation =>
            have plain := (isOrdinary_iff.mp (further _ List.mem_cons_self)).2.1
            exact absurd punctuation (by simp [plain])

/-- Where a text is not blank it begins with a token, unless a literal is never closed. -/
theorem exists_cuts (solid : isBlank c = false) (closed : endsInside false (c :: text) = false) :
    ∃ spelling rest, c :: text = spelling ++ rest ∧ Cuts spelling rest := by
  by_cases opens : c = quote
  · subst opens
    have inside : quote ∈ text := by
      by_contra quoteFree
      rw [endsInside_cons, endsInside_of_quoteFree quoteFree] at closed
      exact absurd closed (by decide)
    obtain ⟨body, rest, rfl, quoteFree⟩ := List.eq_append_cons_of_mem inside
    exact ⟨quote :: body ++ [quote], rest, by simp, .literal quoteFree⟩
  · by_cases joined : joins [c] text
    · obtain ⟨takes, equals⟩ : takesEquals c ∧ text.head? = some '=' := by
        simpa [joins] using joined
      obtain ⟨rest, rfl⟩ := List.head?_eq_some_iff.mp equals
      exact ⟨[c, '='], rest, rfl, .comparator takes⟩
    · have apart : joins [c] text = false := by simpa using joined
      by_cases punctuation : isPunctuation c
      · exact ⟨[c], text, rfl, .punctuation punctuation apart⟩
      · have plain : isPunctuation c = false := by simpa using punctuation
        have ordinary : isOrdinary c := isOrdinary_iff.mpr ⟨solid, plain, opens⟩
        have begins : endsWord (c :: text) = false := by simp [endsWord, ordinary, apart]
        obtain ⟨word, rest, same, cuts, -⟩ := exists_word begins
        exact ⟨word, rest, same, cuts⟩

/-- The induction is on the length, as a token takes any number of characters. -/
theorem exists_writes :
    (text : List Char) → endsInside false text = false → ∃ tokens, Writes tokens text
  | [], _ => ⟨[], .nil⟩
  | c :: others, closed => by
      by_cases dark : isBlank c
      · rw [endsInside_cons_blank dark] at closed
        obtain ⟨tokens, writes⟩ := exists_writes others closed
        exact ⟨tokens, .blank dark writes⟩
      · obtain ⟨spelling, rest, same, cuts⟩ := exists_cuts (by simpa using dark) closed
        rw [same, cuts.endsInside_append] at closed
        obtain ⟨tokens, writes⟩ := exists_writes rest closed
        have spelled := characters_ofList spelling
        have whole : Writes (⟨String.ofList spelling⟩ :: tokens) (spelling ++ rest) := by
          have first := Writes.token (spelled.symm ▸ cuts) writes
          rwa [spelled] at first
        exact ⟨_, same ▸ whole⟩
termination_by text => text.length
decreasing_by
  · exact Nat.lt_succ_self _
  · have positive := List.length_pos_iff.mpr cuts.ne_nil
    rw [same, List.length_append]
    omega

/-- A text is written with its tokens, and with no others, if its literals are closed. -/
theorem writes_iff :
    Writes tokens text ↔ endsInside false text = false ∧ scanFrom false text = tokens := by
  constructor
  · exact fun writes => ⟨writes.closed, writes.scanFrom_eq⟩
  · rintro ⟨closed, rfl⟩
    obtain ⟨tokens, writes⟩ := exists_writes text closed
    rwa [writes.scanFrom_eq]

/-- A literal that is not closed is scanned as if it were closed at the end. -/
theorem scanFrom_closed {inLiteral : Bool} (inside : endsInside inLiteral text) :
    scanFrom inLiteral (text ++ [quote]) = scanFrom inLiteral text := by
  induction text using cut_induction quote generalizing inLiteral with
  | whole piece quoteFree =>
      rw [endsInside_of_quoteFree quoteFree] at inside
      subst inside
      rw [scanFrom_inside_quoted quoteFree, scanFrom_plain quoteFree]
      rfl
  | cut piece others quoteFree inductionHypothesis =>
      rw [endsInside_quoted quoteFree] at inside
      rw [List.append_assoc, List.cons_append, scanFrom_quoted quoteFree,
        inductionHypothesis inside, scanFrom_quoted quoteFree]

/-- The text as it is scanned: trimmed, with its last literal closed. -/
def scanned (text : String) : List Char :=
  trim text.toList ++ if endsInside false text.toList then [quote] else []

/-- Every text has the tokens that its trimmed and closed form is written with. -/
theorem writes_scan (text : String) : Writes (scan text) (scanned text) := by
  rw [writes_iff, scanned, endsInside_append, endsInside_trim]
  split
  · rename_i inside
    rw [scanFrom_closed (by rwa [endsInside_trim]), inside]
    exact ⟨rfl, rfl⟩
  · rename_i outside
    rw [List.append_nil]
    exact ⟨by simpa using outside, rfl⟩

end Token

end TextTables
