import TextTables.Proofs.Statement.Commands

/-!
# Selecting a database by any text

A command that selects a database is put together around a text, which is not checked before. It is
read exactly if the text is a name, apart from blanks around it. Quotes, semicolons and further
commands in the text are never read.
-/

namespace TextTables

open Text Token

theorem Text.trim_of_isPlain {text : List Char} (plain : isPlain text) : trim text = text := by
  have solid : ∀ c ∈ text, ¬ isBlank c := fun c member => by
    simp [(isSolid_of_isAlphanum ((isPlain_iff.mp plain).2 c member)).notBlank]
  exact trim_eq_self (fun c first => solid c (List.mem_of_mem_head? first))
    fun c last => solid c (List.mem_of_getLast? last)

namespace Token

variable {name : List Char} {word : Token}

/-- The verb is the first token, whatever the text holds. -/
theorem scan_use (name : String) :
    scan ("USE " ++ name ++ ";") = ⟨"USE"⟩ :: scanFrom false (name.toList ++ [';']) := by
  have whole : ("USE " ++ name ++ ";").toList = "USE".toList ++ ' ' :: (name.toList ++ [';']) := by
    simp
  have trimmed : trim ("USE " ++ name ++ ";").toList = ("USE " ++ name ++ ";").toList := by
    apply trim_eq_self
    · rw [whole]
      rintro c ⟨⟩
      decide
    · rw [whole, List.append_cons, ← List.append_assoc, List.getLast?_concat]
      rintro c ⟨⟩
      decide
  have verb : Cuts "USE".toList (' ' :: (name.toList ++ [';'])) :=
    (IsSpelled.of_isPlain (by decide)).cuts (.space _)
  change scanFrom false (trim _) = _
  rw [trimmed, whole, verb.scanFrom_append, scanFrom_blank (by decide), String.ofList_toList]

/-- A word with blanks around it is scanned alone in front of a semicolon. -/
theorem scanFrom_of_trim (plain : isPlain word.characters) (trimmed : trim name = word.characters) :
    scanFrom false (name ++ [';']) = [word, ⟨";"⟩] := by
  obtain ⟨front, back, before, behind, whole⟩ := exists_blanks_trim name
  obtain ⟨nonempty, letters⟩ := isPlain_iff.mp plain
  have ordinary : ∀ c ∈ word.characters, isOrdinary c := by
    intro c member
    have solid := isSolid_of_isAlphanum (letters c member)
    exact isOrdinary_iff.mpr ⟨solid.notBlank, solid.notPunctuation, solid.notQuote⟩
  have touch : MayTouch word ⟨";"⟩ :=
    ⟨.inr (.inr (.inr (.inl (by decide)))), joins_of_head?_ne (by decide)⟩
  have wordProper : word.IsProper := .word ⟨nonempty, ordinary⟩
  have endProper : IsProper ⟨";"⟩ := .separator (by decide)
  have writing : IsWriting [(word, back), (⟨";"⟩, [])] :=
    ⟨by simp [wordProper, endProper], by simpa using behind, List.isChain_pair.mpr fun _ => touch⟩
  have spelled : name ++ [';'] = front ++ written [(word, back), (⟨";"⟩, [])] := by
    rw [whole, trimmed]
    simp [written, characters]
  rw [spelled]
  exact (writing.writes.blanks before).scanFrom_eq

/-- A word that is scanned alone in front of a semicolon has only blanks around it. -/
theorem trim_of_scanFrom (plain : isPlain word.characters)
    (scanned : scanFrom false (name ++ [';']) = [word, ⟨";"⟩]) : trim name = word.characters := by
  have closed : endsInside false (name ++ [';']) = false := by
    by_contra inside
    obtain ⟨others, body, cut⟩ := scanFrom_unclosed (by simpa using inside)
    have last : others ++ [ofLiteral body] = [word] ++ [⟨";"⟩] := cut.symm.trans scanned
    simpa [ofLiteral, quote, ← String.toList_inj] using List.append_inj_right' last rfl
  obtain ⟨front, rest, before, whole, writes⟩ := (writes_iff.mpr ⟨closed, scanned⟩).exists_of_cons
  obtain ⟨back, after, behind, rfl, nothing⟩ := writes.exists_of_cons
  have semicolon : characters ⟨";"⟩ = [';'] := rfl
  -- A blank behind the semicolon would be the last character of the text.
  obtain rfl : after = [] := by
    by_contra nonempty
    obtain ⟨others, c, rfl⟩ := (List.eq_nil_or_concat' after).resolve_left nonempty
    have dark : isBlank c := nothing.isBlank_of_nil c (by simp)
    obtain rfl : ';' = c := by simpa [← List.append_assoc] using congrArg List.getLast? whole
    exact absurd dark (by decide)
  rw [semicolon, List.append_nil, ← List.append_assoc, ← List.append_assoc] at whole
  rw [List.append_inj_left' whole rfl, List.append_assoc, trim_blanks before behind,
    trim_of_isPlain plain]

end Token

/-- Behind the verb only a name and a semicolon are read. -/
theorem Reader.statement_use_iff {tokens rest : List Token} {result : Statement} :
    statement (⟨"USE"⟩ :: tokens) = .ok (result, rest) ↔
      ∃ word, tokens = [word, ⟨";"⟩] ∧ isPlain word.characters ∧
        result = .use (lowercase word.spelling) ∧ rest = [] := by
  have known : Verb.ofText? "USE" = some .use := by decide +kernel
  constructor
  · intro read
    obtain ⟨token, others, verb, whole, verbKnown, found, rfl⟩ := statement_eq_ok read
    cases whole
    cases known.symm.trans verbKnown
    obtain ⟨name, between, named, used⟩ := bind_eq_ok found
    cases used
    obtain ⟨word, others, first, checked⟩ := bind_eq_ok named
    cases tokens with
    | nil => cases first
    | cons head tail =>
        cases first
        unfold nameOfToken at checked
        split at checked
        · rename_i plain
          cases checked
          exact ⟨word, rfl, plain, rfl, rfl⟩
        · cases checked
  · rintro ⟨⟨spelling⟩, rfl, plain, rfl, rfl⟩
    apply (bind_ok (next_cons _ _ _) _).trans
    simp only [known]
    have named : body .use [⟨spelling⟩, ⟨";"⟩] = .ok (.use (lowercase spelling), [⟨";"⟩]) :=
      (bind_ok (name_cons_lowercase plain _ _) _).trans rfl
    exact bind_ok named _

/-- The command selects the database of the given name, or it is not read. -/
theorem Statement.parse_use_iff {name : String} {statement : Statement} :
    parse ("USE " ++ name ++ ";") = .ok statement ↔
      isPlain (trim name.toList) ∧
        statement = .use (lowercase (String.ofList (trim name.toList))) := by
  rw [parse_eq_ok_iff, scan_use]
  constructor
  · rintro ⟨rest, read⟩
    obtain ⟨word, scanned, plain, same, -⟩ := Reader.statement_use_iff.mp read
    rw [trim_of_scanFrom plain scanned, characters, String.ofList_toList]
    exact ⟨plain, same⟩
  · rintro ⟨plain, rfl⟩
    have spelled := characters_ofList (trim name.toList)
    have scanned := scanFrom_of_trim (spelled.symm ▸ plain) spelled.symm
    exact ⟨[], Reader.statement_use_iff.mpr ⟨_, scanned, spelled.symm ▸ plain, rfl, rfl⟩⟩

end TextTables
