import TextTables.Proofs.Text.Names

/-!
# Lower-casing twice

The small form of a letter is no capital letter, so that a text in lower case stays as it is. The
runs of the case tables are compared by their ends: the small forms of a run lie beside every
other run, or between its letters.
-/

namespace TextTables.Text

namespace CaseRun

/-- The code of the small form, for a code of the run. -/
def form (run : CaseRun) (code : Nat) : Nat :=
  (code + run.shift).toNat

/-- The small forms lie beside the other run, or at every second place where it has none. -/
def avoids (run other : CaseRun) : Bool :=
  run.form run.last < other.first || other.last < run.form run.first ||
    (other.step == 2 && (run.step == 2 || run.first == run.last) &&
      (run.form run.first + other.first) % 2 == 1)

/-- The small forms are characters, and of ASCII there is one only. -/
def isProper (run : CaseRun) : Bool :=
  0 ≤ run.first + run.shift &&
    (0x80 ≤ run.form run.first || (run.form run.first == 'k'.toNat && run.first == run.last)) &&
    (run.form run.last < 0xD800 ||
      (0xDFFF < run.form run.first && run.form run.last < 0x110000)) &&
    (run.form run.last < 0x130 || 0x130 < run.form run.first)

theorem avoids_caseRuns : ∀ run ∈ caseRuns, ∀ other ∈ caseRuns, run.avoids other := by
  have checked : (caseRuns.all fun run => caseRuns.all run.avoids) = true := by decide +kernel
  simpa only [List.all_eq_true] using checked

theorem isProper_caseRuns : ∀ run ∈ caseRuns, run.isProper := by
  have checked : caseRuns.all isProper = true := by decide +kernel
  simpa only [List.all_eq_true] using checked

variable {run other : CaseRun} {code : Nat}

theorem form_bounds (proper : run.isProper) (inside : run.contains code) :
    run.form run.first ≤ run.form code ∧ run.form code ≤ run.form run.last ∧
      (run.form code : Int) = code + run.shift := by
  simp only [contains, Bool.and_eq_true, decide_eq_true_eq] at inside
  simp only [isProper, Bool.and_eq_true, decide_eq_true_eq] at proper
  unfold form
  omega

/-- A small form is a character beyond ASCII, or else it is the letter `k`. -/
theorem form_cases (proper : run.isProper) (inside : run.contains code) :
    Char.ofNat (run.form code) = 'k' ∨
      (Char.ofNat (run.form code)).toNat = run.form code ∧ 0x80 ≤ run.form code ∧
        run.form code ≠ 0x130 := by
  obtain ⟨low, high, -⟩ := form_bounds proper inside
  simp only [isProper, Bool.and_eq_true, Bool.or_eq_true, decide_eq_true_eq, beq_iff_eq] at proper
  obtain ⟨⟨⟨-, ascii⟩, valid⟩, dot⟩ := proper
  rcases ascii with beyond | ⟨letter, alone⟩
  · have isChar : (run.form code).isValidChar := by
      unfold Nat.isValidChar
      omega
    right
    rw [Char.ofNat, dif_pos isChar]
    exact ⟨rfl, by omega, by omega⟩
  · left
    have same : run.form code = 'k'.toNat := by
      rw [← alone] at high
      omega
    rw [same]
    rfl

theorem not_contains_form (avoids : run.avoids other) (proper : run.isProper)
    (inside : run.contains code) : ¬ other.contains (run.form code) := by
  intro taken
  obtain ⟨low, high, value⟩ := form_bounds proper inside
  have atStart : run.contains run.first := by
    simp only [contains, Bool.and_eq_true, decide_eq_true_eq] at inside ⊢
    simp
    omega
  have start := (form_bounds proper atStart).2.2
  simp only [contains, Bool.and_eq_true, decide_eq_true_eq, beq_iff_eq] at inside taken
  simp only [CaseRun.avoids, Bool.or_eq_true, Bool.and_eq_true, decide_eq_true_eq, beq_iff_eq]
    at avoids
  rcases avoids with (below | above) | ⟨⟨two, single⟩, odd⟩
  · omega
  · omega
  · rw [two] at taken
    rcases single with twoToo | alone
    · rw [twoToo] at inside
      omega
    · omega

end CaseRun

/-- A character that lower-casing leaves as it is, wherever it stands. -/
structure IsSettled (c : Char) : Prop where
  small : small c = [c]
  noSigma : c.toNat ≠ 0x3A3

instance IsSettled.decidable (c : Char) : Decidable (IsSettled c) :=
  decidable_of_iff (Text.small c = [c] ∧ c.toNat ≠ 0x3A3)
    ⟨fun ⟨small, noSigma⟩ => ⟨small, noSigma⟩, fun ⟨small, noSigma⟩ => ⟨small, noSigma⟩⟩

/-- A character beyond ASCII that is no capital. -/
theorem isSettled_of_unlisted {c : Char} (beyond : ¬ c.toNat < 0x80) (noDot : c.toNat ≠ 0x130)
    (unlisted : ∀ run ∈ caseRuns, ¬ run.contains c.toNat) : IsSettled c := by
  have missing : caseRuns.find? (·.contains c.toNat) = none := by
    simpa using unlisted
  refine ⟨?_, fun sigma => ?_⟩
  · simp [small, beyond, noDot, missing]
  · have listed : ∃ run ∈ caseRuns, run.contains 0x3A3 := by
      have checked : (caseRuns.any fun run => run.contains 0x3A3) = true := by decide +kernel
      simpa only [List.any_eq_true] using checked
    obtain ⟨run, member, inside⟩ := listed
    exact unlisted run member (sigma ▸ inside)

theorem isSettled_form {run : CaseRun} {code : Nat} (member : run ∈ caseRuns)
    (inside : run.contains code) : IsSettled (Char.ofNat (run.form code)) := by
  have proper := CaseRun.isProper_caseRuns run member
  rcases CaseRun.form_cases proper inside with letter | ⟨value, beyond, noDot⟩
  · rw [letter]
    decide +kernel
  · apply isSettled_of_unlisted
    · rwa [value, Nat.not_lt]
    · rwa [value]
    · rw [value]
      exact fun other listed => CaseRun.not_contains_form
        (CaseRun.avoids_caseRuns run member other listed) proper inside

/-- Where a small form comes from: ASCII, the capital with a dot, one of the runs, or a character
that has no other form. -/
theorem cases_of_mem_small {c form : Char} (member : form ∈ small c) :
    (c.toNat < 0x80 ∧ form = c.toLower) ∨ form ∈ ['i', Char.ofNat 0x307] ∨
      (∃ run ∈ caseRuns, run.contains c.toNat ∧ form = Char.ofNat (run.form c.toNat)) ∨
      (form = c ∧ IsSettled c) := by
  unfold small at member
  split at member
  · rename_i ascii
    exact .inl ⟨ascii, List.mem_singleton.mp member⟩
  · rename_i beyond
    split at member
    · exact .inr (.inl member)
    · rename_i noDot
      split at member
      · rename_i run found
        have inside : run.contains c.toNat := by simpa using List.find?_some found
        exact .inr (.inr (.inl
          ⟨run, List.mem_of_find?_eq_some found, inside, List.mem_singleton.mp member⟩))
      · rename_i missing
        have settled := isSettled_of_unlisted beyond (by simpa using noDot) (by simpa using missing)
        exact .inr (.inr (.inr ⟨List.mem_singleton.mp member, settled⟩))

/-- A small form is no capital. -/
theorem isSettled_of_mem_small {c form : Char} (member : form ∈ small c) : IsSettled form := by
  rcases cases_of_mem_small member with
    ⟨ascii, rfl⟩ | dotted | ⟨run, listed, inside, rfl⟩ | ⟨rfl, settled⟩
  · exact ascii_induction (fun c => IsSettled c.toLower) (by decide +kernel) ascii
  · rcases List.mem_pair.mp dotted with rfl | rfl <;> decide +kernel
  · exact isSettled_form listed inside
  · exact settled

/-- Both forms of sigma are small. -/
theorem isSettled_of_mem_lowercaseAfter {before text : List Char} {c : Char}
    (member : c ∈ lowercaseAfter before text) : IsSettled c := by
  induction text generalizing before with
  | nil => cases member
  | cons first rest inductionHypothesis =>
      rcases List.mem_append.mp member with here | later
      · split at here
        · split at here <;> (obtain rfl := List.mem_singleton.mp here; decide +kernel)
        · exact isSettled_of_mem_small here
      · exact inductionHypothesis later

theorem lowercaseAfter_eq_self {text : List Char} (settled : ∀ c ∈ text, IsSettled c)
    (before : List Char) : lowercaseAfter before text = text := by
  induction text generalizing before with
  | nil => rfl
  | cons first rest inductionHypothesis =>
      have here := settled first List.mem_cons_self
      have later := inductionHypothesis (fun c member => settled c (.tail _ member)) (first :: before)
      simp [lowercaseAfter, here.small, here.noSigma, later]

theorem lowercase_lowercase (text : String) : lowercase (lowercase text) = lowercase text := by
  apply String.toList_injective
  rw [lowercase, String.toList_ofList]
  apply lowercaseAfter_eq_self
  intro c member
  rw [lowercase, String.toList_ofList] at member
  exact isSettled_of_mem_lowercaseAfter member

/-- Lower-casing brings in no characters of ASCII but letters. -/
theorem eq_of_mem_small {c form : Char} (member : form ∈ small c) (ascii : form.toNat < 0x80)
    (noLetter : ¬ form.isLower) : form = c := by
  rcases cases_of_mem_small member with
    ⟨low, rfl⟩ | dotted | ⟨run, listed, inside, rfl⟩ | ⟨rfl, -⟩
  · exact ascii_induction (fun c => ¬ c.toLower.isLower → c.toLower = c) (by decide +kernel) low
      noLetter
  · rcases List.mem_pair.mp dotted with rfl | rfl
    · exact absurd (by decide) noLetter
    · exact absurd ascii (by decide)
  · rcases CaseRun.form_cases (CaseRun.isProper_caseRuns run listed) inside with
      letter | ⟨value, beyond, -⟩
    · rw [letter] at noLetter
      exact absurd (by decide) noLetter
    · omega
  · rfl

theorem mem_of_mem_lowercaseAfter {before text : List Char} {c : Char}
    (member : c ∈ lowercaseAfter before text) (ascii : c.toNat < 0x80) (noLetter : ¬ c.isLower) :
    c ∈ text := by
  induction text generalizing before with
  | nil => cases member
  | cons first rest inductionHypothesis =>
      rcases List.mem_append.mp member with here | later
      · split at here
        · split at here <;>
            (obtain rfl := List.mem_singleton.mp here; exact absurd ascii (by decide))
        · rw [eq_of_mem_small here ascii noLetter]
          exact List.mem_cons_self
      · exact .tail _ (inductionHypothesis later)

theorem mem_of_mem_lowercase {text : String} {c : Char} (member : c ∈ (lowercase text).toList)
    (ascii : c.toNat < 0x80) (noLetter : ¬ c.isLower) : c ∈ text.toList := by
  rw [lowercase, String.toList_ofList] at member
  exact mem_of_mem_lowercaseAfter member ascii noLetter

end TextTables.Text
