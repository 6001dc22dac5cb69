import TextTables.Proofs.Condition.Comparing
import TextTables.Proofs.Text.Names

/-!
# The words that are values

A cell or value is recognised as `TRUE`, `FALSE` or `NULL` by its capital form in Unicode, and
two of them are compared with only the letters of ASCII in either case. One letter falls between
the two: the long `ſ` is an `S` in capitals, and no `s` otherwise. It fits into `FALSE` alone.
-/

namespace TextTables

open Text

namespace Text

/-- The letters that a single character can stand for together. -/
def ligatures : List (Char × Char) :=
  [('S', 'S'), ('F', 'F'), ('F', 'I'), ('F', 'L'), ('S', 'T')]

/-- No two neighbours of the word are written as one character. -/
def IsLoose (word : List Char) : Prop :=
  word.IsChain fun first second => (first, second) ∉ ligatures

instance (word : List Char) : Decidable (IsLoose word) :=
  inferInstanceAs (Decidable (List.IsChain _ _))

/-- The capital form is a single character or starts with a ligature. -/
theorem capital_cases (c : Char) :
    (∃ letter, capital c = [letter]) ∨
      ∃ first second rest, capital c = first :: second :: rest ∧ (first, second) ∈ ligatures := by
  unfold capital
  split
  case h_2 | h_3 | h_11 => exact .inl ⟨_, rfl⟩
  all_goals exact .inr ⟨_, _, _, rfl, by decide⟩

/-- The characters with a single capital letter are its two forms within ASCII, the long `ſ` and
the dotless `ı`. -/
theorem toLower_of_capital {c letter : Char} (single : capital c = [letter]) :
    c.toLower = letter.toLower ∨ (c = 'ſ' ∧ letter = 'S') ∨ (c = 'ı' ∧ letter = 'I') := by
  have named : ∀ code, c.toNat = code → c = Char.ofNat code := fun code same => by
    rw [← same, Char.ofNat_toNat]
  unfold capital at single
  split at single
  case h_2 code =>
      cases single
      exact .inr (.inr ⟨named _ code, rfl⟩)
  case h_3 code =>
      cases single
      exact .inr (.inl ⟨named _ code, rfl⟩)
  case h_11 =>
      obtain rfl : c.toUpper = letter := List.singleton_inj.mp single
      by_cases small : c.isLower
      · have plain : c.isAlphanum := by simp [Char.isAlphanum, Char.isAlpha, small]
        exact .inl (ascii_induction (fun c => c.toLower = c.toUpper.toLower) (by decide +kernel)
          (lt_of_isAlphanum plain))
      · rw [Char.toUpper_eq_of_not_isLower small]
        exact .inl rfl
  all_goals cases single

/-- A word without ligatures is spelled letter by letter. -/
theorem forall₂_of_capitals {text word : List Char} (loose : IsLoose word)
    (spelled : text.flatMap capital = word) :
    List.Forall₂ (fun c letter => capital c = [letter]) text word := by
  induction text generalizing word with
  | nil =>
      subst spelled
      exact .nil
  | cons c rest inductionHypothesis =>
      rw [List.flatMap_cons] at spelled
      obtain ⟨letter, single⟩ | ⟨first, second, more, several, ligature⟩ := capital_cases c
      · rw [single] at spelled
        subst spelled
        exact .cons single (inductionHypothesis (List.IsChain.of_cons loose) rfl)
      · rw [several] at spelled
        subst spelled
        exact absurd ligature (List.isChain_cons_cons.mp loose).1

/-- Beside `S` and `I` every letter has only its two forms within ASCII. -/
theorem map_toLower_of_capitals {text word : List Char}
    (spelled : List.Forall₂ (fun c letter => capital c = [letter]) text word)
    (noS : 'S' ∉ word) (noI : 'I' ∉ word) :
    text.map Char.toLower = word.map Char.toLower ∧ 'ſ' ∉ text := by
  induction spelled with
  | nil => simp
  | @cons c letter rest others single _ inductionHypothesis =>
      rw [List.mem_cons, not_or] at noS noI
      obtain ⟨lowered, short⟩ := inductionHypothesis noS.2 noI.2
      obtain same | ⟨rfl, rfl⟩ | ⟨rfl, rfl⟩ := toLower_of_capital single
      · refine ⟨by rw [List.map_cons, List.map_cons, same, lowered], ?_⟩
        rw [List.mem_cons, not_or]
        refine ⟨?_, short⟩
        rintro rfl
        exact noS.1 (List.singleton_inj.mp single)
      · exact absurd rfl noS.1
      · exact absurd rfl noI.1

end Text

namespace Keyword

/-- The keywords that are values. -/
def IsValue (keyword : Keyword) : Prop :=
  keyword = truth ∨ keyword = falsehood ∨ keyword = null

instance (keyword : Keyword) : Decidable keyword.IsValue :=
  inferInstanceAs (Decidable (_ ∨ _))

theorem IsValue.isLoose {keyword : Keyword} (value : keyword.IsValue) :
    IsLoose keyword.spelling.toList := by
  rcases value with rfl | rfl | rfl <;> decide

variable {text : String}

theorem forall₂_of_isSpelledBy {keyword : Keyword} (value : keyword.IsValue)
    (spelled : keyword.isSpelledBy text) :
    List.Forall₂ (fun c letter => capital c = [letter]) text.toList keyword.spelling.toList :=
  forall₂_of_capitals value.isLoose (spells_iff.mp spelled)

/-- Only in `FALSE` is there a letter with a form beyond its two within ASCII. -/
theorem map_toLower_of_falsehood (spelled : falsehood.isSpelledBy text) :
    text.toList.map Char.toLower =
      if 'ſ' ∈ text.toList then "falſe".toList else "false".toList := by
  have letters := forall₂_of_isSpelledBy (.inr (.inl rfl)) spelled
  have word : falsehood.spelling.toList = ['F', 'A', 'L', 'S', 'E'] := by decide
  rw [word] at letters
  generalize text.toList = characters at letters ⊢
  obtain _ | ⟨isF, _ | ⟨isA, _ | ⟨isL, _ | ⟨isS, _ | ⟨isE, _ | _⟩⟩⟩⟩⟩ := letters
  rename_i f a l s e
  obtain ⟨before, shortBefore⟩ :=
    map_toLower_of_capitals (.cons isF (.cons isA (.cons isL .nil))) (by decide) (by decide)
  obtain ⟨after, shortAfter⟩ :=
    map_toLower_of_capitals (.cons isE .nil) (by decide) (by decide)
  have whole : [f, a, l, s, e].map Char.toLower =
      "fal".toList ++ s.toLower :: "e".toList := by
    have apart : [f, a, l, s, e].map Char.toLower =
        [f, a, l].map Char.toLower ++ s.toLower :: [e].map Char.toLower := rfl
    rw [apart, before, after]
    rfl
  have long : 'ſ' ∈ [f, a, l, s, e] ↔ s = 'ſ' := by
    have apart : [f, a, l, s, e] = [f, a, l] ++ s :: [e] := rfl
    rw [apart, List.mem_append, or_iff_right shortBefore, List.mem_cons, or_iff_left shortAfter]
    exact eq_comm
  rw [whole]
  obtain same | ⟨rfl, -⟩ | ⟨-, letter⟩ := toLower_of_capital isS
  · have short : s ≠ 'ſ' := by
      rintro rfl
      exact absurd same (by decide)
    rw [if_neg (long.not.mpr short), same]
    decide
  · rw [if_pos (long.mpr rfl)]
    decide
  · exact absurd letter (by decide)

/-- The small letters of a word that is a value. -/
theorem map_toLower_of_isSpelledBy {keyword : Keyword} (value : keyword.IsValue)
    (spelled : keyword.isSpelledBy text) :
    text.toList.map Char.toLower =
        (if 'ſ' ∈ text.toList then "falſe".toList
          else keyword.spelling.toList.map Char.toLower) ∧
      ('ſ' ∈ text.toList → keyword = falsehood) := by
  by_cases falsehoods : keyword = falsehood
  · subst falsehoods
    exact ⟨map_toLower_of_falsehood spelled, fun _ => rfl⟩
  · obtain ⟨noS, noI⟩ : 'S' ∉ keyword.spelling.toList ∧ 'I' ∉ keyword.spelling.toList := by
      rcases value with rfl | rfl | rfl
      · decide
      · exact absurd rfl falsehoods
      · decide
    obtain ⟨lowered, short⟩ :=
      map_toLower_of_capitals (forall₂_of_isSpelledBy value spelled) noS noI
    exact ⟨by rw [if_neg short, lowered], fun long => absurd long short⟩

/-- Two values are the same but for the case of ASCII letters exactly if they are the same word, with
a long `ſ` in both or in neither. -/
theorem sameIgnoringCase_iff_of_isSpelledBy {keyword other : Keyword} (value : keyword.IsValue)
    (otherValue : other.IsValue) {second : String} (spelled : keyword.isSpelledBy text)
    (otherSpelled : other.isSpelledBy second) :
    sameIgnoringCase text second ↔
      keyword = other ∧ ('ſ' ∈ text.toList ↔ 'ſ' ∈ second.toList) := by
  obtain ⟨lowered, long⟩ := map_toLower_of_isSpelledBy value spelled
  obtain ⟨otherLowered, otherLong⟩ := map_toLower_of_isSpelledBy otherValue otherSpelled
  have distinct : keyword.spelling.toList.map Char.toLower =
      other.spelling.toList.map Char.toLower ↔ keyword = other := by
    rcases value with rfl | rfl | rfl <;> rcases otherValue with rfl | rfl | rfl <;> decide
  have longLetter : ∀ word : Keyword, word.IsValue →
      "falſe".toList ≠ word.spelling.toList.map Char.toLower := by
    rintro word (rfl | rfl | rfl) <;> decide
  rw [sameIgnoringCase_iff, lowered, otherLowered]
  by_cases here : 'ſ' ∈ text.toList <;> by_cases there : 'ſ' ∈ second.toList
  · simp [here, there, long here, otherLong there]
  · simpa [here, there] using longLetter other otherValue
  · simpa [here, there] using (longLetter keyword value).symm
  · simpa [here, there] using distinct

end Keyword

namespace Kind

variable {text : String}

/-- A boolean or `NULL` spells one of the three words. -/
theorem exists_keyword_of_kind (word : Kind.of text = .boolean ∨ Kind.of text = .null) :
    ∃ keyword : Keyword, keyword.IsValue ∧ keyword.isSpelledBy text := by
  unfold Kind.of at word
  split at word
  case isTrue truths =>
      rw [Bool.or_eq_true] at truths
      obtain spelled | spelled := truths
      · exact ⟨.truth, .inl rfl, spelled⟩
      · exact ⟨.falsehood, .inr (.inl rfl), spelled⟩
  case isFalse =>
      split at word
      case isTrue spelled => exact ⟨.null, .inr (.inr rfl), spelled⟩
      case isFalse =>
          split at word
          · split at word <;> simp at word
          · simp at word

end Kind

namespace Comparator

variable {cell token : String} {literal : Literal}

theorem agree_eq_sameIgnoringCase (accepted : Literal.ofToken token = .ok literal)
    (word : literal.kind = .boolean ∨ literal.kind = .null) :
    agree cell literal = sameIgnoringCase cell token := by
  have unquoted : literal.text = token :=
    Literal.text_of_ne_string accepted (by rcases word with kind | kind <;> simp [kind])
  rcases word with kind | kind <;> simp [agree, kind, unquoted]

/-- A boolean or `NULL` equals a literal of its kind exactly if both spell the same word, and either
both or neither of them with a long `ſ`. The letter fits into `FALSE` alone, so that all spellings
of `TRUE` are equal, and all spellings of `NULL`. -/
theorem equal_holds_iff_ofText? (accepted : Literal.ofToken token = .ok literal)
    (same : Kind.of cell = literal.kind)
    (word : literal.kind = .boolean ∨ literal.kind = .null) :
    (equal.holds cell literal ↔
        Keyword.ofText? cell = Keyword.ofText? token ∧
          ('ſ' ∈ cell.toList ↔ 'ſ' ∈ token.toList)) ∧
      (Keyword.ofText? token ≠ some .falsehood →
        (equal.holds cell literal ↔ Keyword.ofText? cell = Keyword.ofText? token)) ∧
      (notEqual.holds cell literal ↔ ¬ equal.holds cell literal) := by
  have kind := (Literal.kind_eq_of_ofToken accepted).1
  have comparable : (Kind.of cell).isComparableWith literal.kind := by
    simp [Kind.isComparableWith, same]
  obtain ⟨keyword, value, spelled⟩ := Kind.exists_keyword_of_kind (same ▸ word)
  obtain ⟨other, otherValue, otherSpelled⟩ := Kind.exists_keyword_of_kind (kind ▸ word)
  have read : Keyword.ofText? cell = some keyword := Keyword.ofText?_eq_some_iff.mpr spelled
  have otherRead : Keyword.ofText? token = some other :=
    Keyword.ofText?_eq_some_iff.mpr otherSpelled
  have equality : equal.holds cell literal ↔
      keyword = other ∧ ('ſ' ∈ cell.toList ↔ 'ſ' ∈ token.toList) := by
    rw [holds, comparable, Bool.true_and, agree_eq_sameIgnoringCase accepted word]
    exact Keyword.sameIgnoringCase_iff_of_isSpelledBy value otherValue spelled otherSpelled
  rw [read, otherRead, Option.some.injEq]
  refine ⟨equality, fun otherwise => ?_, ?_⟩
  · rw [equality, and_iff_left_iff_imp]
    rintro rfl
    have short := (Keyword.map_toLower_of_isSpelledBy value spelled).2
    have otherShort := (Keyword.map_toLower_of_isSpelledBy value otherSpelled).2
    have notFalse : keyword ≠ .falsehood := fun falsehood => otherwise (by rw [falsehood])
    exact iff_of_false (fun long => notFalse (short long)) fun long => notFalse (otherShort long)
  · simp [holds, comparable]

/-- Letters of ASCII may be in either case. -/
theorem equal_holds_iff_ofText?_mixed :
    Literal.ofToken "TRUE" = .ok ⟨"TRUE", .boolean⟩ ∧ Kind.of "tRuE" = .boolean ∧
      equal.holds "tRuE" ⟨"TRUE", .boolean⟩ := by
  have accepted : Literal.ofToken "TRUE" = .ok ⟨"TRUE", .boolean⟩ := by decide +kernel
  have same : Kind.of "tRuE" = .boolean := by decide +kernel
  refine ⟨accepted, same, ?_⟩
  exact ((equal_holds_iff_ofText? accepted same (.inl rfl)).2.1 (by decide +kernel)).mpr
    (by decide +kernel)

/-- With a long `ſ` the word is a boolean and the same keyword, and differs from `FALSE`. -/
theorem not_equal_holds_of_ofText? :
    ¬ ∀ (cell token : String) (literal : Literal), Literal.ofToken token = .ok literal →
      Kind.of cell = literal.kind → literal.kind = .boolean ∨ literal.kind = .null →
      (equal.holds cell literal ↔ Keyword.ofText? cell = Keyword.ofText? token) := by
  intro agreed
  have claimed := agreed "falſe" "FALSE" ⟨"FALSE", .boolean⟩ (by decide +kernel)
    (by decide +kernel) (.inl rfl)
  have differs : ¬ equal.holds "falſe" ⟨"FALSE", .boolean⟩ := by decide +kernel
  exact differs (claimed.mpr (by decide +kernel))

end Comparator

end TextTables
