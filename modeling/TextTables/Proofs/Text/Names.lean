import TextTables.Name
import TextTables.Proofs.Disk.Following

/-!
# Names in lower case

Lower-casing goes letter by letter on the names that commands can hold, and keeps them letters
and digits. Such a name can name a file or directory, with or without an ending.
-/

namespace TextTables

open Text

namespace Text

/-- A property of the characters of ASCII is checked character by character. -/
theorem ascii_induction (property : Char → Prop)
    (checked : ∀ code < 128, property (Char.ofNat code)) {c : Char} (ascii : c.toNat < 128) :
    property c := by
  have here := checked c.toNat ascii
  rwa [Char.ofNat_toNat] at here

theorem lt_of_isAlphanum {c : Char} (plain : c.isAlphanum) : c.toNat < 128 := by
  simp only [Char.isAlphanum, Char.isAlpha, Char.isUpper, Char.isLower, Char.isDigit,
    Bool.or_eq_true, Bool.and_eq_true, decide_eq_true_eq, UInt32.le_iff_toNat_le, ge_iff_le]
    at plain
  have code : c.toNat = c.val.toNat := rfl
  have lastCapital : 'Z'.val.toNat = 90 := rfl
  have lastSmall : 'z'.val.toNat = 122 := rfl
  have lastDigit : '9'.val.toNat = 57 := rfl
  omega

theorem isAlphanum_toLower {c : Char} (plain : c.isAlphanum) : c.toLower.isAlphanum :=
  ascii_induction (fun c => c.isAlphanum → c.toLower.isAlphanum)
    (by decide +kernel) (lt_of_isAlphanum plain) plain

theorem toLower_toLower {c : Char} (plain : c.isAlphanum) : c.toLower.toLower = c.toLower :=
  ascii_induction (fun c => c.isAlphanum → c.toLower.toLower = c.toLower)
    (by decide +kernel) (lt_of_isAlphanum plain) plain

theorem lowercaseAfter_plain {text : List Char} (plain : ∀ c ∈ text, c.isAlphanum)
    (before : List Char) : lowercaseAfter before text = text.map Char.toLower := by
  induction text generalizing before with
  | nil => rfl
  | cons c rest inductionHypothesis =>
      have ascii : c.toNat < 128 := lt_of_isAlphanum (plain c List.mem_cons_self)
      have noSigma : (c.toNat == 0x3A3) = false := by
        rw [beq_eq_false_iff_ne]
        omega
      have alone : small c = [c.toLower] := by simp [small, ascii]
      have others := inductionHypothesis (fun other member => plain other (.tail _ member))
      simp [lowercaseAfter, noSigma, alone, others]

theorem toList_lowercase {text : String} (plain : isPlain text.toList) :
    (lowercase text).toList = text.toList.map Char.toLower := by
  rw [lowercase, String.toList_ofList]
  exact lowercaseAfter_plain (isPlain_iff.mp plain).2 []

end Text

/-- A name as commands give it to databases and tables: letters and digits in lower case. -/
structure IsName (name : String) : Prop where
  plain : isPlain name.toList
  lower : lowercase name = name

theorem isName_lowercase {text : String} (plain : isPlain text.toList) :
    IsName (lowercase text) := by
  obtain ⟨nonempty, letters⟩ := isPlain_iff.mp plain
  have spelled := toList_lowercase plain
  have kept : isPlain (lowercase text).toList := by
    rw [spelled]
    refine isPlain_iff.mpr ⟨by simpa using nonempty, ?_⟩
    intro c member
    obtain ⟨original, inside, rfl⟩ := List.mem_map.mp member
    exact isAlphanum_toLower (letters original inside)
  refine ⟨kept, String.toList_injective ?_⟩
  rw [toList_lowercase kept, spelled, List.map_map]
  exact List.map_congr_left fun c member => toLower_toLower (letters c member)

namespace IsName

variable {name : String}

theorem isAlphanum (named : IsName name) {c : Char} (member : c ∈ name.toList) : c.isAlphanum :=
  (isPlain_iff.mp named.plain).2 c member

theorem toList_ne_nil (named : IsName name) : name.toList ≠ [] :=
  (isPlain_iff.mp named.plain).1

/-- An ending without slashes and zeros makes the name of a file of a name. -/
theorem isFileName_append (named : IsName name) {ending : String}
    (slashFree : '/' ∉ ending.toList) (zeroFree : '\x00' ∉ ending.toList) :
    IsFileName (name ++ ending) := by
  obtain ⟨first, rest, spelled⟩ := List.exists_cons_of_ne_nil named.toList_ne_nil
  have letter : first.isAlphanum := named.isAlphanum (by simp [spelled])
  have noPoint : first ≠ '.' := by
    rintro rfl
    exact absurd letter (by decide)
  have whole : (name ++ ending).toList = first :: (rest ++ ending.toList) := by simp [spelled]
  refine ⟨?_, ?_, ?_, ?_, ?_⟩
  · intro same
    simp [same] at whole
  · intro same
    rw [same] at whole
    exact noPoint (List.cons.inj whole).1.symm
  · intro same
    rw [same] at whole
    exact noPoint (List.cons.inj whole).1.symm
  · simp only [String.toList_append, List.mem_append, not_or]
    exact ⟨fun member => absurd (named.isAlphanum member) (by decide), slashFree⟩
  · simp only [String.toList_append, List.mem_append, not_or]
    exact ⟨fun member => absurd (named.isAlphanum member) (by decide), zeroFree⟩

theorem isFileName (named : IsName name) : IsFileName name := by
  have bare : IsFileName (name ++ "") := named.isFileName_append (by simp) (by simp)
  simpa using bare

end IsName

end TextTables
