import TextTables.Proofs.Token.Writing

/-!
# Tokens and the blanks between them

Every token is a literal, a symbol or a word. Tokens that are written down in order, with blanks
between them, are scanned as they are. Two words need a blank between them, and so do two
comparators, and two tokens of which the first takes the equals sign of the second. Elsewhere there
can be none.
-/

namespace TextTables

open Text

namespace Token

/-- The symbols that stand by themselves, whatever is next to them. -/
def separators : List String := ["(", ")", ",", ";"]

def comparators : List String := ["=", ">", "<", "==", ">=", "<=", "!="]

/-- Quotes at both ends and none between them. -/
def IsLiteral (token : Token) : Prop :=
  ∃ body, quote ∉ body ∧ token = ofLiteral body

theorem isLiteral_iff {token : Token} :
    token.IsLiteral ↔ token.isQuoted ∧ token.characters.count quote = 2 := by
  rw [isQuoted, isQuoted_iff]
  constructor
  · rintro ⟨body, quoteFree, rfl⟩
    refine ⟨⟨body, characters_ofLiteral body⟩, ?_⟩
    rw [characters_ofLiteral, List.count_append, List.count_cons_self,
      List.count_eq_zero_of_not_mem quoteFree]
    rfl
  · rintro ⟨⟨body, spelled⟩, twice⟩
    change token.characters = _ at spelled
    rw [spelled, List.count_append, List.count_cons_self, List.count_singleton_self] at twice
    refine ⟨body, List.count_eq_zero.mp (by omega), ?_⟩
    rw [← ofList_characters token, spelled]
    rfl

instance (token : Token) : Decidable token.IsLiteral :=
  decidable_of_iff _ isLiteral_iff.symm

/-- No blanks, no quotes and no punctuation. -/
def IsWord (token : Token) : Prop :=
  token.characters ≠ [] ∧ ∀ c ∈ token.characters, isOrdinary c

instance (token : Token) : Decidable token.IsWord :=
  decidable_of_iff (token.characters ≠ [] ∧ token.characters.all isOrdinary)
    (by rw [IsWord, List.all_eq_true])

inductive IsProper (token : Token) : Prop
  | literal (literal : token.IsLiteral)
  | separator (listed : token.spelling ∈ separators)
  | comparator (listed : token.spelling ∈ comparators)
  | word (word : token.IsWord)

theorem isProper_iff {token : Token} :
    token.IsProper ↔ token.IsLiteral ∨ token.spelling ∈ separators ∨
      token.spelling ∈ comparators ∨ token.IsWord := by
  constructor
  · rintro (literal | listed | listed | word)
    · exact .inl literal
    · exact .inr (.inl listed)
    · exact .inr (.inr (.inl listed))
    · exact .inr (.inr (.inr word))
  · rintro (literal | listed | listed | word)
    · exact .literal literal
    · exact .separator listed
    · exact .comparator listed
    · exact .word word

instance (token : Token) : Decidable token.IsProper :=
  decidable_of_iff _ isProper_iff.symm

/-- The two tokens can stand side by side: one of them shows where it ends, or a comparator meets a
word, and no equals sign is joined to the first one. -/
structure MayTouch (first second : Token) : Prop where
  apart : first.IsLiteral ∨ second.IsLiteral ∨
    first.spelling ∈ separators ∨ second.spelling ∈ separators ∨
    (first.spelling ∈ comparators ∧ second.IsWord) ∨ (first.IsWord ∧ second.spelling ∈ comparators)
  unjoined : joins first.characters second.characters = false

instance (first second : Token) : Decidable (MayTouch first second) :=
  decidable_of_iff (_ ∧ _) ⟨fun ⟨apart, unjoined⟩ => ⟨apart, unjoined⟩,
    fun ⟨apart, unjoined⟩ => ⟨apart, unjoined⟩⟩

example : ¬ MayTouch ⟨"!"⟩ ⟨"="⟩ ∧ scan "a! =b" ≠ scan "a!=b" := by decide +kernel

/-- Tokens in order, each with the blanks behind it. -/
structure IsWriting (parts : List (Token × List Char)) : Prop where
  proper : ∀ part ∈ parts, part.1.IsProper
  dark : ∀ part ∈ parts, ∀ c ∈ part.2, isBlank c
  touching : parts.IsChain fun first second => first.2 = [] → first.1.MayTouch second.1

instance (parts : List (Token × List Char)) : Decidable (IsWriting parts) :=
  decidable_of_iff ((∀ part ∈ parts, part.1.IsProper) ∧ (parts.all fun part => part.2.all isBlank) ∧
      parts.IsChain fun first second => first.2 = [] → first.1.MayTouch second.1) <| by
    simp only [List.all_eq_true]
    exact ⟨fun ⟨proper, dark, touching⟩ => ⟨proper, dark, touching⟩,
      fun ⟨proper, dark, touching⟩ => ⟨proper, dark, touching⟩⟩

/-- The tokens and the blanks behind them, written down. -/
def written (parts : List (Token × List Char)) : List Char :=
  parts.flatMap fun part => part.1.characters ++ part.2

/-- The tokens with single spaces between them. -/
def rejoined (tokens : List Token) : String :=
  " ".intercalate (tokens.map spelling)

variable {token first second : Token} {tokens : List Token}
  {spelling text rest : List Char} {c : Char}
  {parts : List (Token × List Char)}

/-! ## Kinds of tokens -/

theorem exists_separator (listed : token.spelling ∈ separators) :
    ∃ c, token.characters = [c] ∧ isPunctuation c ∧ c ≠ '=' := by
  obtain ⟨spelling⟩ := token
  simp only [separators, List.mem_cons, List.not_mem_nil, or_false] at listed
  rcases listed with rfl | rfl | rfl | rfl
  all_goals exact ⟨_, rfl, by decide, by decide⟩

theorem exists_comparator (listed : token.spelling ∈ comparators) :
    ∃ c, (token.characters = [c, '='] ∧ takesEquals c) ∨
      (token.characters = [c] ∧ isPunctuation c) := by
  obtain ⟨spelling⟩ := token
  simp only [comparators, List.mem_cons, List.not_mem_nil, or_false] at listed
  rcases listed with rfl | rfl | rfl | rfl | rfl | rfl | rfl
  · exact ⟨_, .inr ⟨rfl, by decide⟩⟩
  · exact ⟨_, .inr ⟨rfl, by decide⟩⟩
  · exact ⟨_, .inr ⟨rfl, by decide⟩⟩
  all_goals exact ⟨_, .inl ⟨rfl, by decide⟩⟩

/-- A token that is cut off has one of the three kinds. -/
theorem Cuts.isProper (cuts : Cuts spelling rest) : IsProper ⟨String.ofList spelling⟩ := by
  cases cuts with
  | @literal body _ quoteFree => exact .literal ⟨body, quoteFree, rfl⟩
  | comparator takes =>
      simp only [takesEquals, List.mem_cons, List.not_mem_nil, or_false, decide_eq_true_eq] at takes
      rcases takes with rfl | rfl | rfl | rfl
      all_goals exact .comparator (by decide)
  | punctuation punctuation =>
      simp only [isPunctuation, List.mem_cons, List.not_mem_nil, or_false, decide_eq_true_eq]
        at punctuation
      rcases punctuation with rfl | rfl | rfl | rfl | rfl | rfl | rfl
      · exact .separator (by decide)
      · exact .separator (by decide)
      · exact .separator (by decide)
      · exact .separator (by decide)
      all_goals exact .comparator (by decide)
  | word nonempty ordinary => exact .word (by simpa [IsWord] using ⟨nonempty, ordinary⟩)

theorem Writes.isProper (writes : Writes tokens text) : ∀ token ∈ tokens, token.IsProper := by
  induction writes with
  | nil => exact List.forall_mem_nil _
  | blank dark later inductionHypothesis => exact inductionHypothesis
  | @token token tokens rest cuts later inductionHypothesis =>
      have first := cuts.isProper
      rw [ofList_characters] at first
      exact List.forall_mem_cons.mpr ⟨first, inductionHypothesis⟩

theorem isProper_of_mem_scan {text : String} (member : token ∈ scan text) : token.IsProper :=
  (writes_scan text).isProper token member

theorem IsProper.ne_nil (proper : token.IsProper) : token.characters ≠ [] := by
  cases proper with
  | literal literal =>
      obtain ⟨body, -, rfl⟩ := literal
      simp [characters_ofLiteral]
  | separator listed =>
      obtain ⟨c, spelled, -⟩ := exists_separator listed
      simp [spelled]
  | comparator listed =>
      obtain ⟨c, ⟨spelled, -⟩ | ⟨spelled, -⟩⟩ := exists_comparator listed <;> simp [spelled]
  | word word => exact word.1

/-! ## Tokens side by side -/

theorem joins_append (nonempty : spelling ≠ []) (text rest : List Char) :
    joins text (spelling ++ rest) = joins text spelling := by
  obtain ⟨c, others, rfl⟩ := List.exists_cons_of_ne_nil nonempty
  rfl

/-- A token is cut off where no equals sign is joined to it, and a word only where it ends. -/
theorem IsProper.cuts (proper : token.IsProper) (unjoined : joins token.characters rest = false)
    (ends : token.IsWord → endsWord rest) : Cuts token.characters rest := by
  cases proper with
  | literal literal =>
      obtain ⟨body, quoteFree, rfl⟩ := literal
      rw [characters_ofLiteral]
      exact .literal quoteFree
  | separator listed =>
      obtain ⟨c, spelled, punctuation, -⟩ := exists_separator listed
      rw [spelled] at unjoined ⊢
      exact .punctuation punctuation unjoined
  | comparator listed =>
      obtain ⟨c, ⟨spelled, takes⟩ | ⟨spelled, punctuation⟩⟩ := exists_comparator listed
      · rw [spelled]
        exact .comparator takes
      · rw [spelled] at unjoined ⊢
        exact .punctuation punctuation unjoined
  | word word => exact .word word.1 word.2 (ends word) unjoined

/-- Every token is cut off in front of a blank, and at the end of the text. -/
theorem IsProper.cuts_of_head? (proper : token.IsProper) (dark : ∀ c ∈ rest.head?, isBlank c) :
    Cuts token.characters rest := by
  refine proper.cuts (joins_of_head?_ne fun equals => ?_) fun _ =>
    endsWord_of_head? fun c member => ?_
  · exact absurd (dark '=' equals) (by decide)
  · simp [isOrdinary, dark c member]

theorem not_isWord_of_mem (member : c ∈ token.characters) (special : isOrdinary c = false) :
    ¬ token.IsWord := by
  intro word
  rw [word.2 c member] at special
  cases special

theorem not_isOrdinary_of_isPunctuation (punctuation : isPunctuation c) : isOrdinary c = false := by
  simp [isOrdinary, punctuation]

/-- Of two tokens that may touch, the first is cut off in front of the second. -/
theorem MayTouch.cuts (touch : MayTouch first second) (proper : first.IsProper)
    (alsoProper : second.IsProper) (rest : List Char) :
    Cuts first.characters (second.characters ++ rest) := by
  refine proper.cuts ?_ fun word => ?_
  · rw [joins_append alsoProper.ne_nil, touch.unjoined]
  · rcases touch.apart with literal | literal | listed | listed | ⟨listed, -⟩ | ⟨-, listed⟩
    · obtain ⟨body, -, rfl⟩ := literal
      have quoted : quote ∈ (ofLiteral body).characters := by simp [characters_ofLiteral]
      exact absurd word (not_isWord_of_mem quoted (by decide))
    · obtain ⟨body, -, rfl⟩ := literal
      rw [characters_ofLiteral]
      rfl
    · obtain ⟨c, spelled, punctuation, -⟩ := exists_separator listed
      exact absurd word (not_isWord_of_mem (c := c) (by simp [spelled])
        (not_isOrdinary_of_isPunctuation punctuation))
    · obtain ⟨c, spelled, punctuation, -⟩ := exists_separator listed
      simp [spelled, endsWord, not_isOrdinary_of_isPunctuation punctuation]
    · obtain ⟨c, ⟨spelled, -⟩ | ⟨spelled, punctuation⟩⟩ := exists_comparator listed
      · exact absurd word (not_isWord_of_mem (c := '=') (by simp [spelled]) (by decide))
      · exact absurd word (not_isWord_of_mem (c := c) (by simp [spelled])
          (not_isOrdinary_of_isPunctuation punctuation))
    · obtain ⟨c, ⟨spelled, takes⟩ | ⟨spelled, punctuation⟩⟩ := exists_comparator listed
      · simp [spelled, endsWord, joins, takes]
      · simp [spelled, endsWord, not_isOrdinary_of_isPunctuation punctuation]

theorem written_cons (part : Token × List Char) (parts : List (Token × List Char)) :
    written (part :: parts) = part.1.characters ++ (part.2 ++ written parts) :=
  List.append_assoc ..

/-- The induction is on the parts: each token is cut off by its blanks or by the next token. -/
theorem IsWriting.writes (writing : IsWriting parts) :
    Writes (parts.map Prod.fst) (written parts) := by
  induction parts with
  | nil => exact .nil
  | cons part others inductionHypothesis =>
      obtain ⟨token, gap⟩ := part
      obtain ⟨proper, othersProper⟩ := List.forall_mem_cons.mp writing.proper
      obtain ⟨dark, othersDark⟩ := List.forall_mem_cons.mp writing.dark
      have later := inductionHypothesis ⟨othersProper, othersDark, writing.touching.tail⟩
      have cuts : Cuts token.characters (gap ++ written others) := by
        cases gap with
        | cons c gap =>
            refine proper.cuts_of_head? fun first member => ?_
            obtain rfl : c = first := by simpa using member
            exact dark c List.mem_cons_self
        | nil =>
            cases others with
            | nil => exact proper.cuts_of_head? nofun
            | cons next further =>
                have touch := (List.isChain_cons_cons.mp writing.touching).1 rfl
                rw [List.nil_append, written_cons]
                exact touch.cuts proper (othersProper next List.mem_cons_self) _
      rw [written_cons]
      exact .token cuts (later.blanks dark)

/-! ## Scanning what was written -/

theorem writes_rejoined (proper : ∀ token ∈ tokens, token.IsProper) :
    Writes tokens (rejoined tokens).toList := by
  induction tokens with
  | nil => exact .nil
  | cons first others inductionHypothesis =>
      obtain ⟨firstProper, othersProper⟩ := List.forall_mem_cons.mp proper
      have later := inductionHypothesis othersProper
      cases others with
      | nil =>
          have cuts : Cuts first.characters [] := firstProper.cuts_of_head? nofun
          have alone := Writes.token cuts .nil
          rwa [List.append_nil] at alone
      | cons second further =>
          have spaced : (rejoined (first :: second :: further)).toList =
              first.characters ++ ' ' :: (rejoined (second :: further)).toList := by
            simp [rejoined, characters, String.intercalate_cons_cons]
          rw [spaced]
          refine .token (firstProper.cuts_of_head? ?_) (.blank (by decide) later)
          rintro c ⟨⟩
          decide

/-- Tokens that are written with blanks wherever they must not touch are scanned as they are. Every
text has only tokens of the three kinds, so that these are scanned again when they are rejoined. -/
theorem scan_written :
    (∀ (lead : List Char) (parts : List (Token × List Char)), (∀ c ∈ lead, isBlank c) →
      IsWriting parts →
        scan (String.ofList (lead ++ written parts)) = parts.map Prod.fst) ∧
      ∀ text : String, (∀ token ∈ scan text, token.IsProper) ∧
        scan (rejoined (scan text)) = scan text := by
  refine ⟨fun lead parts dark writing => (writing.writes.blanks dark).scan_eq, fun text => ?_⟩
  have proper : ∀ token ∈ scan text, token.IsProper := fun token => isProper_of_mem_scan
  have again := (writes_rejoined proper).scan_eq
  rw [String.ofList_toList] at again
  exact ⟨proper, again⟩

/-- An exclamation mark ends a word, blanks of any kind stand between tokens, and literals touch. -/
theorem scan_written_touching :
    let parts : List (Token × List Char) :=
      [(⟨"a!"⟩, []), (⟨">="⟩, []), (⟨"-1"⟩, ['\n', '\t']), (⟨"AND"⟩, []), (⟨"("⟩, []),
        (⟨"b"⟩, ['\u3000']), (⟨"="⟩, []), (⟨"'x  =y'"⟩, []), (⟨"''"⟩, []), (⟨")"⟩, []),
        (⟨";"⟩, [' '])]
    IsWriting parts ∧ scan "\ra!>=-1\n\tAND(b\u3000='x  =y''');\x20" = parts.map Prod.fst := by
  intro parts
  have dark : ∀ c ∈ ['\r'], isBlank c := List.forall_mem_singleton.mpr (by decide)
  have writing : IsWriting parts := by decide +kernel
  have text : "\ra!>=-1\n\tAND(b\u3000='x  =y''');\x20" =
      String.ofList (['\r'] ++ written parts) := by decide +kernel
  exact ⟨writing, text ▸ scan_written.1 ['\r'] parts dark writing⟩

end Token

end TextTables
