import TextTables.Proofs.Number.Decimal
import TextTables.Proofs.Text.Names
import TextTables.Proofs.Token.Writing

/-!
# Scanning sentences

A token is a word, punctuation, a comparator of two characters or a literal. In front of a space
or a semicolon each of these is scanned as one token, so that a sentence gives back the tokens
that it was put together from.
-/

namespace TextTables

open Text

/-- A character of a word has no other meaning. -/
structure Text.IsSolid (c : Char) : Prop where
  notBlank : isBlank c = false
  notPunctuation : Token.isPunctuation c = false
  notEquals : Token.takesEquals c = false
  notQuote : c ≠ quote

instance Text.IsSolid.decidable (c : Char) : Decidable (IsSolid c) :=
  decidable_of_iff
    (isBlank c = false ∧ Token.isPunctuation c = false ∧ Token.takesEquals c = false ∧ c ≠ quote)
    ⟨fun ⟨notBlank, notPunctuation, notEquals, notQuote⟩ =>
      ⟨notBlank, notPunctuation, notEquals, notQuote⟩,
    fun ⟨notBlank, notPunctuation, notEquals, notQuote⟩ =>
      ⟨notBlank, notPunctuation, notEquals, notQuote⟩⟩

theorem Text.isSolid_of_isAlphanum {c : Char} (plain : c.isAlphanum) : IsSolid c :=
  ascii_induction (fun c => c.isAlphanum → IsSolid c) (by decide +kernel)
    (lt_of_isAlphanum plain) plain

/-- Spaces between the words of a sentence, and a semicolon at its end. -/
def sentence (spellings : List String) : String :=
  " ".intercalate spellings ++ ";"

namespace Token

/-- The ways to spell a token. -/
inductive IsSpelled : List Char → Prop
  | word {spelling : List Char} (nonempty : spelling ≠ []) (solid : ∀ c ∈ spelling, IsSolid c) :
      IsSpelled spelling
  | punctuation {c : Char} (punctuation : isPunctuation c) : IsSpelled [c]
  | comparator {c : Char} (takes : takesEquals c) : IsSpelled [c, '=']
  | literal {body : List Char} (quoteFree : quote ∉ body) : IsSpelled (quote :: body ++ [quote])

namespace IsSpelled

variable {spelling : List Char}

theorem of_isPlain (plain : isPlain spelling) : IsSpelled spelling := by
  obtain ⟨nonempty, letters⟩ := isPlain_iff.mp plain
  exact .word nonempty fun c member => isSolid_of_isAlphanum (letters c member)

end IsSpelled

def AreSpelled (spellings : List String) : Prop :=
  ∀ spelling ∈ spellings, IsSpelled spelling.toList

namespace AreSpelled

theorem nil : AreSpelled [] :=
  List.forall_mem_nil _

theorem cons {spelling : String} {spellings : List String} (first : IsSpelled spelling.toList)
    (others : AreSpelled spellings) : AreSpelled (spelling :: spellings) :=
  List.forall_mem_cons.mpr ⟨first, others⟩

theorem append {spellings others : List String} (front : AreSpelled spellings)
    (back : AreSpelled others) : AreSpelled (spellings ++ others) :=
  List.forall_mem_append.mpr ⟨front, back⟩

end AreSpelled

/-- The text goes on with a space or a semicolon, so that a token ends in front of it. -/
inductive Breaks : List Char → Prop
  | space (rest : List Char) : Breaks (' ' :: rest)
  | semicolon (rest : List Char) : Breaks (';' :: rest)

variable {spelling rest : List Char}

theorem IsSpelled.cuts (spelled : IsSpelled spelling) (breaks : Breaks rest) :
    Cuts spelling rest := by
  have apart : ∀ text, joins text rest = false :=
    fun text => joins_of_head?_ne (by cases breaks <;> simp)
  cases spelled with
  | word nonempty solid =>
      have ordinary : ∀ c ∈ spelling, isOrdinary c := fun c member =>
        isOrdinary_iff.mpr ⟨(solid c member).notBlank, (solid c member).notPunctuation,
          (solid c member).notQuote⟩
      have ends : endsWord rest := by cases breaks <;> rfl
      exact .word nonempty ordinary ends (apart spelling)
  | @punctuation c punctuation => exact .punctuation punctuation (apart [c])
  | comparator takes => exact .comparator takes
  | literal quoteFree => exact .literal quoteFree

variable {spellings : List String}

/-- The last token stands in front of the semicolon, and all others in front of a space. -/
theorem writes_sentence (nonempty : spellings ≠ []) (spelled : AreSpelled spellings) :
    Writes (spellings.map Token.mk ++ [⟨";"⟩]) (sentence spellings).toList := by
  induction spellings with
  | nil => exact absurd rfl nonempty
  | cons first others inductionHypothesis =>
      have here := spelled first List.mem_cons_self
      cases others with
      | nil =>
          have semicolon : Cuts (characters ⟨";"⟩) [] := .punctuation (by decide) rfl
          have whole : (sentence [first]).toList = first.toList ++ [';'] := by simp [sentence]
          rw [whole]
          exact .token (here.cuts (.semicolon [])) (.token semicolon .nil)
      | cons second rest =>
          have later := inductionHypothesis (List.cons_ne_nil _ _)
            fun spelling member => spelled spelling (.tail _ member)
          have whole : (sentence (first :: second :: rest)).toList =
              first.toList ++ ' ' :: (sentence (second :: rest)).toList := by
            simp [sentence, String.intercalate_cons_cons]
          rw [whole]
          exact .token (here.cuts (.space _)) (.blank (by decide) later)

/-- A sentence is scanned token by token. -/
theorem scan_sentence (nonempty : spellings ≠ []) (spelled : AreSpelled spellings) :
    scan (sentence spellings) = spellings.map Token.mk ++ [⟨";"⟩] := by
  have scanned := (writes_sentence nonempty spelled).scan_eq
  rwa [String.ofList_toList] at scanned

end Token

end TextTables
