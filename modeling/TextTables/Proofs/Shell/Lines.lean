import TextTables.Proofs.Shell.Events
import TextTables.Proofs.Statement.Tokens

/-!
# Commands over several lines

The shell trims the lines of a command and puts them together with single spaces. As its line feeds
stand between tokens, the command keeps its tokens. No part of it can be taken for the whole, as only
the last of its tokens ends with a semicolon, and none for a word to the shell, as the first one does
not begin with a point.
-/

namespace TextTables

open Text Token

namespace Shell

variable {pending line text : List Char} {lines : List (List Char)} {words later : List Token}

/-- One more line adds its tokens. -/
theorem scanFrom_extend (outside : endsInside false pending = false)
    (closed : endsInside false line = false) :
    endsInside false (extend pending (trim line)) = false ∧
      scanFrom false (extend pending (trim line)) =
        scanFrom false pending ++ scanFrom false line := by
  have trimmed : endsInside false (trim line) = false := (endsInside_trim line).trans closed
  rw [← scanFrom_trim closed]
  unfold extend
  split
  · rename_i empty
    rw [empty]
    exact ⟨outside, (List.append_nil _).symm⟩
  · split
    · rename_i nothing
      rw [nothing]
      exact ⟨trimmed, rfl⟩
    · refine ⟨?_, scanFrom_append_blank (by decide) outside _⟩
      rw [endsInside_append, outside]
      exact trimmed

theorem getLast?_extend (nonempty : line ≠ []) (pending : List Char) :
    (extend pending line).getLast? = line.getLast? := by
  obtain ⟨front, c, rfl⟩ := (List.eq_nil_or_concat' line).resolve_left nonempty
  unfold extend
  rw [if_neg nonempty]
  split
  · rfl
  · rw [← List.cons_append, ← List.append_assoc, List.getLast?_concat, List.getLast?_concat]

/-- A command ends at its semicolon. -/
theorem eq_nil_of_semicolon (outside : endsInside false text = false)
    (command : AreCommand (scanFrom false text ++ later) words)
    (last : text.getLast? = some ';') : later = [] := by
  obtain ⟨others, token, cut, ends⟩ := scanFrom_last last (by decide) outside
  by_contra further
  obtain ⟨more, final, rfl⟩ := (List.eq_nil_or_concat' later).resolve_left further
  have ended := command.ended
  rw [cut, ← List.append_assoc] at ended
  have whole : others ++ [token] ++ more = words := List.append_inj_left' ended rfl
  exact (command.inner token (by simp [← whole])).noEnd ends

/-- What is left of a command, when a part of it is pending. -/
structure Awaits (pending : List Char) (lines : List (List Char)) (words : List Token) : Prop where
  outside : endsInside false pending = false
  closed : ∀ line ∈ lines, endsInside false line = false
  command : AreCommand (scanFrom false pending ++ lines.flatMap (scanFrom false)) words
  unfinished : lines.flatMap (scanFrom false) ≠ []

/-- All lines of a command are awaited before its first one. -/
theorem awaits_of_areCommand (command : AreCommand (scanFrom false (trim text)) words) :
    Awaits [] (text.splitOn '\n') words := by
  have outside := command.closed
  rw [scanFrom_trim outside] at command
  have oneLine : ∀ token ∈ scanFrom false text, '\n' ∉ token.characters := by
    intro token member
    rw [command.ended] at member
    rcases List.mem_append.mp member with inner | last
    · exact (command.inner token inner).oneLine
    · rw [List.mem_singleton.mp last]
      decide
  obtain ⟨closed, tokens⟩ := scanFrom_lines outside oneLine
  refine ⟨rfl, closed, tokens.symm ▸ command, ?_⟩
  rw [tokens, command.ended]
  simp

namespace Awaits

/-- No line of a command is a word to the shell. -/
theorem noPoint (awaits : Awaits pending (line :: lines) words) :
    ¬ (pending = [] ∧ (trim line).head? = some '.') := by
  rintro ⟨rfl, point⟩
  have closed := awaits.closed line List.mem_cons_self
  obtain ⟨token, others, cut, begins⟩ := scanFrom_first point (by decide)
  rw [scanFrom_trim closed] at cut
  refine awaits.command.noPoint token ?_ begins
  rw [List.flatMap_cons, cut]
  rfl

/-- A line completes the command, and only blank lines can follow, or the rest is awaited. -/
theorem step (awaits : Awaits pending (line :: lines) words) :
    ((extend pending (trim line)).getLast? = some ';' ∧
        scan (String.ofList (extend pending (trim line))) = words ++ [⟨";"⟩] ∧
        ∀ other ∈ lines, trim other = []) ∨
      ((extend pending (trim line)).getLast? ≠ some ';' ∧
        Awaits (extend pending (trim line)) lines words) := by
  have closed := awaits.closed line List.mem_cons_self
  have others : ∀ other ∈ lines, endsInside false other = false := fun other member =>
    awaits.closed other (.tail _ member)
  obtain ⟨outside, tokens⟩ := scanFrom_extend awaits.outside closed
  have command := awaits.command
  rw [List.flatMap_cons, ← List.append_assoc, ← tokens] at command
  by_cases last : (extend pending (trim line)).getLast? = some ';'
  · have nothing := eq_nil_of_semicolon outside command last
    rw [nothing, List.append_nil] at command
    refine .inl ⟨last, ?_, fun other member => ?_⟩
    · rw [scan_eq_scanFrom (by rwa [String.toList_ofList]), String.toList_ofList]
      exact command.ended
    · have blank := List.flatMap_eq_nil_iff.mp nothing other member
      exact (trim_eq_nil_iff (others other member)).mpr blank
  · refine .inr ⟨last, outside, others, command, fun nothing => last ?_⟩
    have unfinished := awaits.unfinished
    rw [List.flatMap_cons, nothing, List.append_nil] at unfinished
    rw [nothing, List.append_nil, tokens] at command
    obtain ⟨c, ends⟩ := Option.ne_none_iff_exists'.mp
      (mt List.getLast?_eq_none_iff.mp (mt (trim_eq_nil_iff closed).mp unfinished))
    obtain ⟨front, token, cut, endsToken⟩ := exists_last_token closed ends
    have ended := command.ended
    rw [cut, ← List.append_assoc] at ended
    obtain rfl : token = ⟨";"⟩ := by simpa using List.append_inj_right' ended rfl
    rw [getLast?_extend (mt (trim_eq_nil_iff closed).mp unfinished), ends, ← endsToken]
    rfl

end Awaits

/-! ## Running lines -/

/-- Lines as the shell receives them. -/
def received (lines : List (List Char)) : List (Option String) :=
  lines.map fun line => some (String.ofList line)

/-- All that happens but the prompts. -/
def withoutPrompts (events : List Event) : List Event :=
  events.filter fun event => !event.isPrompt

@[simp]
theorem withoutPrompts_prompted (prompt : String) (events : List Event) :
    withoutPrompts (.prompted prompt :: events) = withoutPrompts events := rfl

@[simp]
theorem withoutPrompts_executed (command : String) (response : Response) (events : List Event) :
    withoutPrompts (.executed command response :: events) =
      .executed command response :: withoutPrompts events := rfl

section

variable {shell : Shell} (disk : Disk) (rest : List (Option String))

/-- A line that does not complete a command is kept. -/
theorem events_extend (noPoint : ¬ (shell.pending = [] ∧ (trim line).head? = some '.'))
    (incomplete : (extend shell.pending (trim line)).getLast? ≠ some ';') :
    let next : Shell := { shell with pending := extend shell.pending (trim line) }
    shell.events disk (some (String.ofList line) :: rest) =
      .prompted next.prompt :: next.events disk rest := by
  simp only [events, handle, feed, take, String.toList_ofList, if_neg noPoint, if_neg incomplete,
    if_true, List.nil_append]

/-- A line that completes a command has it executed. -/
theorem events_complete (noPoint : ¬ (shell.pending = [] ∧ (trim line).head? = some '.'))
    (complete : (extend shell.pending (trim line)).getLast? = some ';') :
    let command := String.ofList (extend shell.pending (trim line))
    let next : Shell := ⟨(shell.session.execute command disk).2.1, []⟩
    shell.events disk (some (String.ofList line) :: rest) =
      .executed command (shell.session.execute command disk).1 :: .prompted next.prompt ::
        next.events (shell.session.execute command disk).2.2 rest := by
  simp only [events, handle, feed, take, execute_eq, String.toList_ofList, if_neg noPoint,
    if_pos complete, if_true, List.singleton_append]

/-- Between commands blank lines are ignored. -/
theorem withoutPrompts_events_blank (session : Session) (blank : ∀ line ∈ lines, trim line = []) :
    withoutPrompts (events ⟨session, []⟩ disk (received lines ++ rest)) =
      withoutPrompts (events ⟨session, []⟩ disk rest) := by
  induction lines with
  | nil => rfl
  | cons line others inductionHypothesis =>
      have empty := blank line List.mem_cons_self
      have later := inductionHypothesis fun other member => blank other (.tail _ member)
      have noPoint : ¬ (([] : List Char) = [] ∧ (trim line).head? = some '.') := by simp [empty]
      have same : extend [] (trim line) = [] := by rw [empty, extend, if_pos rfl]
      have incomplete : (extend [] (trim line)).getLast? ≠ some ';' := by simp [same]
      have step :=
        @events_extend line ⟨session, []⟩ disk (received others ++ rest) noPoint incomplete
      rw [same] at step
      exact (congrArg withoutPrompts step).trans later

/-- The lines of a command have it executed once, with its own tokens. -/
theorem withoutPrompts_events_awaits (awaits : Awaits shell.pending lines words) :
    ∃ command, scan command = words ++ [⟨";"⟩] ∧
      withoutPrompts (shell.events disk (received lines ++ rest)) =
        .executed command (shell.session.execute command disk).1 ::
          withoutPrompts (events ⟨(shell.session.execute command disk).2.1, []⟩
            (shell.session.execute command disk).2.2 rest) := by
  induction lines generalizing shell with
  | nil => exact absurd rfl awaits.unfinished
  | cons line others inductionHypothesis =>
      rcases awaits.step with ⟨complete, tokens, blank⟩ | ⟨incomplete, further⟩
      · refine ⟨_, tokens, ?_⟩
        have step := events_complete disk (received others ++ rest) awaits.noPoint complete
        refine (congrArg withoutPrompts step).trans ?_
        rw [withoutPrompts_executed, withoutPrompts_prompted,
          withoutPrompts_events_blank _ _ _ blank]
      · obtain ⟨command, tokens, executed⟩ :=
          @inductionHypothesis ⟨shell.session, extend shell.pending (trim line)⟩ further
        have step := events_extend disk (received others ++ rest) awaits.noPoint incomplete
        exact ⟨command, tokens, (congrArg withoutPrompts step).trans executed⟩

end

end Shell

end TextTables
