import TextTables.Proofs.Text.Blanks
import TextTables.Proofs.Text.Lines
import TextTables.Proofs.Token.Cutting

/-!
# Blanks between tokens

Outside literals a blank ends a token, so that what stands on its two sides is scanned by itself.
Where there are blanks it makes no difference how many there are and which ones, but where there
is none it does. A text is squeezed to one space for each run of blanks outside its literals, and
texts that are squeezed to the same have the same tokens.
-/

namespace TextTables

open Text

namespace Token

/-- Whether a text ends inside a literal if it begins inside or outside one. -/
def endsInside (inLiteral : Bool) (text : List Char) : Bool :=
  text.foldl (fun inLiteral c => inLiteral != (c == quote)) inLiteral

variable {inLiteral : Bool} {text piece rest : List Char} {blank : Char}

@[simp]
theorem endsInside_nil (inLiteral : Bool) : endsInside inLiteral [] = inLiteral := rfl

@[simp]
theorem endsInside_cons (inLiteral : Bool) (c : Char) (rest : List Char) :
    endsInside inLiteral (c :: rest) = endsInside (inLiteral != (c == quote)) rest := rfl

theorem endsInside_append (inLiteral : Bool) (text rest : List Char) :
    endsInside inLiteral (text ++ rest) = endsInside (endsInside inLiteral text) rest :=
  List.foldl_append

theorem endsInside_of_quoteFree (quoteFree : quote ∉ piece) (inLiteral : Bool) :
    endsInside inLiteral piece = inLiteral := by
  induction piece with
  | nil => rfl
  | cons c others inductionHypothesis =>
      obtain ⟨here, later⟩ := quoteFree_cons quoteFree
      rw [endsInside_cons, here, Bool.bne_false, inductionHypothesis later]

/-- The first quote opens a literal or closes the one that is open. -/
theorem endsInside_quoted (quoteFree : quote ∉ piece) (inLiteral : Bool) (rest : List Char) :
    endsInside inLiteral (piece ++ quote :: rest) = endsInside (!inLiteral) rest := by
  rw [endsInside_append, endsInside_of_quoteFree quoteFree, endsInside_cons, beq_self_eq_true,
    Bool.bne_true]

theorem ne_quote_of_isBlank {c : Char} (dark : isBlank c) : c ≠ quote := by
  rintro rfl
  exact absurd dark (by decide)

theorem endsInside_cons_blank {c : Char} (dark : isBlank c) (inLiteral : Bool) (rest : List Char) :
    endsInside inLiteral (c :: rest) = endsInside inLiteral rest := by
  rw [endsInside_cons, beq_eq_false_iff_ne.mpr (ne_quote_of_isBlank dark), Bool.bne_false]

theorem endsInside_blanks (dark : ∀ c ∈ text, isBlank c) (inLiteral : Bool) :
    endsInside inLiteral text = inLiteral :=
  endsInside_of_quoteFree (fun member => ne_quote_of_isBlank (dark _ member) rfl) inLiteral

/-! ## What a blank sets apart -/

theorem not_special_of_isBlank {c : Char} (dark : isBlank c) :
    takesEquals c = false ∧ isPunctuation c = false ∧ (c == '=') = false := by
  refine ⟨?_, ?_, ?_⟩
  · by_contra takes
    simp [(not_special_of_takesEquals (by simpa using takes)).1] at dark
  · by_contra punctuation
    simp [(not_special_of_isPunctuation (by simpa using punctuation)).1] at dark
  · rw [beq_eq_false_iff_ne]
    rintro rfl
    exact absurd dark (by decide)

theorem setApart_append_blank (dark : isBlank blank) (text rest : List Char) :
    setApart (text ++ blank :: rest) = setApart text ++ blank :: setApart rest := by
  obtain ⟨noTakes, noPunctuation, noEquals⟩ := not_special_of_isBlank dark
  have alone : setApart (blank :: rest) = blank :: setApart rest := by
    simp [setApart_cons, noTakes, noPunctuation]
  have single : ∀ (c next : Char) (others : List Char), (takesEquals c && next == '=') = false →
      setApart (c :: next :: others) =
        (if isPunctuation c then [' ', c, ' '] else [c]) ++ setApart (next :: others) := by
    intro c next others apart
    rw [setApart_cons, List.head?_cons, Option.some_beq_some, apart, if_neg Bool.false_ne_true]
  have nothing : setApart [] = [] := rfl
  induction text using setApart.induct with
  | case1 => exact alone
  | case2 c punctuation => simp [setApart_cons, noEquals, punctuation, alone, nothing]
  | case3 c plain => simp [setApart_cons, noEquals, plain, alone, nothing]
  | case4 c next others joined inductionHypothesis =>
      obtain ⟨takes, same⟩ := (Bool.and_eq_true _ _).mp joined
      simp [setApart_cons c, takes, beq_iff_eq.mp same, inductionHypothesis]
  | case5 c next others apart _ inductionHypothesis
  | case6 c next others apart _ inductionHypothesis =>
      have apart := Bool.eq_false_iff.mpr apart
      rw [List.cons_append] at inductionHypothesis
      rw [List.cons_append, List.cons_append, single c next _ apart, single c next _ apart,
        inductionHypothesis, List.append_assoc]

theorem ofPlain_append_blank (dark : isBlank blank) (text rest : List Char) :
    ofPlain (text ++ blank :: rest) = ofPlain text ++ ofPlain rest := by
  rw [ofPlain, setApart_append_blank dark, words_append_blank dark, List.map_append, ofPlain,
    ofPlain]

/-- Outside literals what stands on the two sides of a blank is scanned by itself. -/
theorem scanFrom_append_blank (dark : isBlank blank) (outside : endsInside inLiteral text = false)
    (rest : List Char) :
    scanFrom inLiteral (text ++ blank :: rest) =
      scanFrom inLiteral text ++ scanFrom false rest := by
  induction text using cut_induction quote generalizing inLiteral with
  | whole piece quoteFree =>
      rw [endsInside_of_quoteFree quoteFree] at outside
      subst outside
      obtain ⟨first, others, split⟩ := List.exists_cons_of_ne_nil (List.splitOn_ne_nil quote rest)
      have bare : quote ∉ piece ++ [blank] := by
        simp [quoteFree, (ne_quote_of_isBlank dark).symm]
      rw [List.append_cons, scanFrom, splitOn_append bare, split, List.modifyHead_cons,
        ofPieces_cons, scanFrom_plain quoteFree, scanFrom, split, ofPieces_cons false first]
      simp [ofPieces, ofPlain_append_blank dark]
  | cut piece others quoteFree inductionHypothesis =>
      rw [endsInside_quoted quoteFree] at outside
      rw [List.append_assoc, List.cons_append, scanFrom_quoted quoteFree,
        inductionHypothesis outside, scanFrom_quoted quoteFree, List.append_assoc]

theorem scanFrom_blank (dark : isBlank blank) (rest : List Char) :
    scanFrom false (blank :: rest) = scanFrom false rest :=
  scanFrom_append_blank dark (endsInside_nil false) rest

theorem scanFrom_blanks (dark : ∀ c ∈ text, isBlank c) (rest : List Char) :
    scanFrom false (text ++ rest) = scanFrom false rest := by
  induction text with
  | nil => rfl
  | cons c others inductionHypothesis =>
      rw [List.cons_append, scanFrom_blank (dark c List.mem_cons_self)]
      exact inductionHypothesis fun other member => dark other (.tail _ member)

/-- Outside literals blanks at the end make no difference. -/
theorem scanFrom_append_blanks (dark : ∀ c ∈ rest, isBlank c)
    (outside : endsInside inLiteral text = false) :
    scanFrom inLiteral (text ++ rest) = scanFrom inLiteral text := by
  cases rest with
  | nil => rw [List.append_nil]
  | cons blank others =>
      have nothing := scanFrom_blanks (fun c member => dark c (.tail _ member)) []
      rw [List.append_nil] at nothing
      rw [scanFrom_append_blank (dark blank List.mem_cons_self) outside, nothing]
      exact List.append_nil _

theorem endsInside_trim (text : List Char) :
    endsInside false (trim text) = endsInside false text := by
  obtain ⟨front, back, darkFront, darkBack, whole⟩ := exists_blanks_trim text
  conv_rhs => rw [whole]
  rw [endsInside_append, endsInside_blanks darkFront, endsInside_append, endsInside_blanks darkBack]

theorem scanFrom_trim (outside : endsInside false text = false) :
    scanFrom false (trim text) = scanFrom false text := by
  obtain ⟨front, back, darkFront, darkBack, whole⟩ := exists_blanks_trim text
  have inner : endsInside false (trim text) = false := (endsInside_trim text).trans outside
  conv_rhs => rw [whole]
  rw [scanFrom_blanks darkFront, scanFrom_append_blanks darkBack inner]

/-- All literals of a text being closed, its ends need not be trimmed. -/
theorem scan_eq_scanFrom {text : String} (outside : endsInside false text.toList = false) :
    scan text = scanFrom false text.toList :=
  scanFrom_trim outside

/-! ## Squeezed texts -/

/-- Outside literals one space takes the place of all blanks in a row. -/
def squeeze (inLiteral : Bool) : List Char → List Char
  | [] => []
  | c :: rest =>
      if inLiteral = false ∧ isBlank c then
        if rest.head?.any isBlank then squeeze false rest else ' ' :: squeeze false rest
      else c :: squeeze (inLiteral != (c == quote)) rest

/-- The text without blanks at its ends, and with single spaces between its tokens. -/
def squeezed (text : String) : List Char :=
  squeeze false (trim text.toList)

example : squeezed "\n a  >=\t1\r\n\r\n AND b='x  y' ;" = "a >= 1 AND b='x  y' ;".toList := by
  decide +kernel

/-- Of what follows, only the squeezed form counts, and whether it begins with a blank. -/
theorem squeeze_append {first second : List Char} (inLiteral : Bool) (front : List Char)
    (begins : first.head?.any isBlank = second.head?.any isBlank)
    (same : squeeze (endsInside inLiteral front) first =
      squeeze (endsInside inLiteral front) second) :
    squeeze inLiteral (front ++ first) = squeeze inLiteral (front ++ second) := by
  induction front generalizing inLiteral with
  | nil => exact same
  | cons c others inductionHypothesis =>
      have alsoBegins :
          (others ++ first).head?.any isBlank = (others ++ second).head?.any isBlank := by
        cases others with
        | nil => exact begins
        | cons next further => rfl
      rw [endsInside_cons] at same
      rw [List.cons_append, List.cons_append, squeeze, squeeze, alsoBegins]
      by_cases gap : inLiteral = false ∧ isBlank c
      · obtain ⟨rfl, dark⟩ := gap
        have stays : (false != (c == quote)) = false := by simp [ne_quote_of_isBlank dark]
        rw [stays] at same
        have gap : false = false ∧ isBlank c := ⟨rfl, dark⟩
        rw [if_pos gap, if_pos gap, inductionHypothesis false same]
      · rw [if_neg gap, if_neg gap, inductionHypothesis _ same]

theorem squeeze_blanks (nonempty : text ≠ []) (dark : ∀ c ∈ text, isBlank c) (rest : List Char) :
    squeeze false (text ++ rest) =
      if rest.head?.any isBlank then squeeze false rest else ' ' :: squeeze false rest := by
  induction text with
  | nil => exact absurd rfl nonempty
  | cons c others inductionHypothesis =>
      have here := dark c List.mem_cons_self
      rw [List.cons_append, squeeze, if_pos ⟨rfl, here⟩]
      cases others with
      | nil => rfl
      | cons next further =>
          have alsoDark := fun c member => dark c (.tail _ member)
          have begins : (next :: further ++ rest).head?.any isBlank := alsoDark next (.head _)
          rw [if_pos begins]
          exact inductionHypothesis (List.cons_ne_nil _ _) alsoDark

/-- Outside literals any blanks can take the place of others, but not of none. -/
theorem squeeze_respaced {gap other : List Char} (outside : endsInside inLiteral text = false)
    (nonempty : gap ≠ []) (dark : ∀ c ∈ gap, isBlank c) (alsoNonempty : other ≠ [])
    (alsoDark : ∀ c ∈ other, isBlank c) (rest : List Char) :
    squeeze inLiteral (text ++ (gap ++ rest)) = squeeze inLiteral (text ++ (other ++ rest)) := by
  have begins : ∀ gap : List Char, gap ≠ [] → (∀ c ∈ gap, isBlank c) →
      (gap ++ rest).head?.any isBlank = true := by
    intro gap nonempty dark
    obtain ⟨first, others, rfl⟩ := List.exists_cons_of_ne_nil nonempty
    exact dark first List.mem_cons_self
  refine squeeze_append inLiteral text ?_ ?_
  · rw [begins gap nonempty dark, begins other alsoNonempty alsoDark]
  · rw [outside, squeeze_blanks nonempty dark, squeeze_blanks alsoNonempty alsoDark]

/-- Behind any text, squeezing changes no token. -/
theorem scanFrom_append_squeeze (front text : List Char) :
    scanFrom false (front ++ squeeze (endsInside false front) text) =
      scanFrom false (front ++ text) := by
  induction text generalizing front with
  | nil => rfl
  | cons c rest inductionHypothesis =>
      rw [squeeze]
      by_cases gap : endsInside false front = false ∧ isBlank c
      · obtain ⟨outside, dark⟩ := gap
        rw [if_pos ⟨outside, dark⟩, scanFrom_append_blank dark outside]
        cases followed : rest.head?.any isBlank with
        | true =>
            obtain ⟨next, others, rfl⟩ : ∃ next others, rest = next :: others := by
              cases rest with
              | nil => simp at followed
              | cons next others => exact ⟨next, others, rfl⟩
            have alsoDark : isBlank next := by simpa using followed
            have kept := inductionHypothesis front
            rw [outside, scanFrom_append_blank alsoDark outside] at kept
            rw [if_pos rfl, kept, scanFrom_blank alsoDark]
        | false =>
            rw [if_neg Bool.false_ne_true, scanFrom_append_blank (by decide) outside]
            exact congrArg _ (inductionHypothesis [])
      · rw [if_neg gap, List.append_cons, List.append_cons front c rest, ← inductionHypothesis,
          endsInside_append]
        rfl

theorem scan_eq_squeezed (text : String) : scan text = scanFrom false (squeezed text) :=
  (scanFrom_append_squeeze [] (trim text.toList)).symm

/-- Texts that differ only in the blanks between their tokens have the same tokens. -/
theorem scan_eq_of_squeezed {first second : String} (same : squeezed first = squeezed second) :
    scan first = scan second := by
  rw [scan_eq_squeezed, same, scan_eq_squeezed]

end Token

end TextTables
