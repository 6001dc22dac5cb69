import Mathlib

/-!
# Lines and bytes of text

A text is kept as its bytes, and read back as it was. It is cut at its line feeds, and so are its
bytes, as no other character has the byte of the line feed.
-/

namespace TextTables

namespace Text

/-- A list has no separator, or it is cut at the first one. -/
@[elab_as_elim]
theorem cut_induction {Item : Type} [DecidableEq Item] (separator : Item)
    {motive : List Item → Prop}
    (whole : ∀ piece, separator ∉ piece → motive piece)
    (cut : ∀ piece rest, separator ∉ piece → motive rest → motive (piece ++ separator :: rest))
    (text : List Item) : motive text :=
  if inside : separator ∈ text then by
    obtain ⟨piece, rest, rfl, free⟩ := List.eq_append_cons_of_mem inside
    exact cut piece rest free (cut_induction separator whole cut rest)
  else whole text inside
termination_by text.length
decreasing_by
  subst_vars
  simp only [List.length_append, List.length_cons]
  omega

/-- The bytes of characters in UTF-8. -/
def bytes (text : List Char) : List UInt8 :=
  text.flatMap String.utf8EncodeChar

theorem fromUTF8?_toUTF8 (text : String) : String.fromUTF8? text.toUTF8 = some text := by
  simp only [String.fromUTF8?, String.toUTF8_eq_toByteArray, dif_pos text.isValidUTF8]
  rfl

theorem toUTF8_of_fromUTF8? {content : ByteArray} {text : String}
    (read : String.fromUTF8? content = some text) : content = text.toUTF8 := by
  unfold String.fromUTF8? at read
  split at read
  · cases read
    rfl
  · cases read

theorem toList_toUTF8 (text : String) : text.toUTF8.data.toList = bytes text.toList := by
  conv_lhs => rw [← String.ofList_toList (s := text)]
  rw [String.toUTF8_eq_toByteArray]
  exact List.toList_data_toByteArray

theorem fromUTF8?_bytes (text : List Char) :
    String.fromUTF8? ⟨(bytes text).toArray⟩ = some (String.ofList text) := by
  have whole : ⟨(bytes text).toArray⟩ = (String.ofList text).toUTF8 := by
    apply ByteArray.ext
    apply Array.toList_inj.mp
    rw [toList_toUTF8, String.toList_ofList]
  rw [whole, fromUTF8?_toUTF8]

@[simp]
theorem bytes_eq_nil {text : List Char} : bytes text = [] ↔ text = [] := by
  cases text <;> simp [bytes, String.utf8EncodeChar_ne_nil]

theorem bytes_append (first second : List Char) :
    bytes (first ++ second) = bytes first ++ bytes second :=
  List.flatMap_append

/-- Only the line feed has its byte. -/
theorem eq_lineFeed_of_mem {c : Char} (member : 10 ∈ String.utf8EncodeChar c) : c = '\n' := by
  have small : c.val.toNat = 10 := by
    simp only [String.utf8EncodeChar] at member
    split_ifs at member <;>
      simp only [List.mem_cons, List.not_mem_nil, or_false, ← UInt8.toNat_inj, UInt8.toNat_ofNat',
        UInt8.reduceToNat] at member <;> omega
  exact Char.ext (UInt32.toNat_inj.mp small)

theorem not_mem_bytes {text : List Char} (free : '\n' ∉ text) : 10 ∉ bytes text := by
  intro member
  obtain ⟨c, inside, encoded⟩ := List.mem_flatMap.mp member
  exact free (eq_lineFeed_of_mem encoded ▸ inside)

theorem splitOn_bytes (text : List Char) :
    (bytes text).splitOn 10 = (text.splitOn '\n').map bytes := by
  induction text using cut_induction '\n' with
  | whole line free =>
      rw [List.splitOn_eq_singleton free, List.splitOn_eq_singleton (not_mem_bytes free)]
      rfl
  | cut line rest free inductionHypothesis =>
      have feed : bytes ('\n' :: rest) = 10 :: bytes rest := rfl
      rw [bytes_append, feed, List.splitOn_append_cons_self_of_not_mem (not_mem_bytes free),
        List.splitOn_append_cons_self_of_not_mem free, inductionHypothesis, List.map_cons]

end Text

end TextTables
