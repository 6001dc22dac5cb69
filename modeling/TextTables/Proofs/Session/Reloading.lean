import TextTables.Proofs.Session.Coherence
import TextTables.Proofs.Statement.Rereading

/-!
# Which databases can be selected

In a run from a new store, a database that was made and not dropped since can be selected exactly
if the last primary keys of all its tables can be read. A table whose name is too long for its
second file fails to be made, but leaves its first file behind, and the database is lost until it
is dropped.
-/

namespace TextTables

open Text Store

/-- The database was made by one of the exchanges, and dropped by none that came later. -/
def IsKept (exchanges : List (String × Response)) (name : String) : Prop :=
  ∃ before command answer after, exchanges = before ++ (command, .answered answer) :: after ∧
    Statement.parse command = .ok (.createDatabase name) ∧
    ∀ exchange ∈ after, Statement.parse exchange.1 = .ok (.dropDatabase name) →
      exchange.2.answer? = none

/-- Each table file of the directory has a second file with room for its name, and that one holds
no key of more than 64 bits. -/
def Disk.IsReloadable (disk : Disk) (directory : Path) (place : Location) : Prop :=
  ∀ file name, stem? file = some name → disk.node? (place ++ [file]) ≠ none →
    directory.CanName (name ++ counterEnding) ∧
      ∀ key : Nat, disk.node? (place ++ [name ++ counterEnding]) =
        some (.file ("pk=" ++ toString key).toUTF8) → key < UInt64.size

namespace Scene

variable {root : Path} {scene next last : Scene} {statement : Statement} {answer : Option Answer}

theorem Run.append {first second : List (String × Response)}
    (run : Run root scene (first ++ second) last) :
    ∃ middle, Run root scene first middle ∧ Run root middle second last := by
  induction first generalizing scene with
  | nil => exact ⟨scene, .nil scene, run⟩
  | cons exchange rest inductionHypothesis =>
      cases run with
      | cons turn others =>
          obtain ⟨middle, front, back⟩ := inductionHypothesis others
          exact ⟨middle, .cons turn front, back⟩

/-- A database stays until a statement drops it. -/
theorem Move.persists {world other : World} (move : Move root world statement answer other)
    {name : String} (present : world name ≠ none)
    (kept : statement = .dropDatabase name → answer = none) : other name ≠ none := by
  have changed : ∀ {other : String} {shelf : Shelf},
      Function.update world other (some shelf) name ≠ none := by
    intro other shelf
    by_cases same : name = other
    · subst same
      simp
    · rwa [Function.update_of_ne same]
  cases move with
  | stays => exact present
  | made | put | torn => exact changed
  | @dropped other shelf there =>
      have different : name ≠ other := by
        rintro rfl
        cases kept rfl
      rwa [Function.update_of_ne different]

theorem Step.made_present {name : String} {answer : Answer}
    (step : scene.Step root (.createDatabase name) (some answer) next) :
    next.world name ≠ none := by
  cases step with
  | made free => simp
  | changed changes => cases changes

theorem Run.persists {exchanges : List (String × Response)}
    (run : Run root scene exchanges last) {name : String} (present : scene.world name ≠ none)
    (kept : ∀ exchange ∈ exchanges, Statement.parse exchange.1 = .ok (.dropDatabase name) →
      exchange.2.answer? = none) : last.world name ≠ none := by
  apply run.preserves (fun middle => middle.world name ≠ none)
  · intro exchange member statement reads spelled before after step there
    apply step.move.persists there
    intro drops
    exact kept exchange member (by rw [reads, drops])
  · exact present

theorem Run.present_of_isKept {exchanges : List (String × Response)}
    (run : Run root scene exchanges last) {name : String} (kept : IsKept exchanges name) :
    last.world name ≠ none := by
  obtain ⟨before, command, answer, after, rfl, reads, later⟩ := kept
  obtain ⟨middle, -, rest⟩ := run.append
  cases rest with
  | cons turn others =>
      refine others.persists ?_ later
      unfold Turn at turn
      rw [reads] at turn
      exact turn.2.made_present

end Scene

/-- Whether the tables of a directory can be read shows on its files. -/
theorem Disk.Holds.readable_iff {disk : Disk} {directory : Path} {place : Location} {shelf : Shelf}
    (holds : disk.Holds directory place shelf) :
    shelf.Readable ↔ disk.IsReloadable directory place := by
  have spelled : ∀ (table : Table) (key : Nat),
      "pk=" ++ toString key = ({ table with lastKey := key } : Table).renderKey := fun _ _ => rfl
  constructor
  · intro readable file name stem stands
    rcases holds.entry file stands with ⟨table, member, rfl | rfl⟩ | ⟨stray, member, rfl⟩
    · obtain rfl : table.name = name := by
        rw [stem?_table (holds.sound table member).named] at stem
        exact Option.some.inj stem
      refine ⟨holds.fits table member, fun key stored => ?_⟩
      rw [holds.counterFile table member, spelled table key] at stored
      have same : table.renderKey = ({ table with lastKey := key } : Table).renderKey := by
        have bytes := Node.file.inj (Option.some.inj stored)
        have texts := congrArg String.fromUTF8? bytes
        rw [fromUTF8?_toUTF8, fromUTF8?_toUTF8] at texts
        exact Option.some.inj texts
      have short : table.lastKey < UInt64.size := readable.short table member
      have parsed := congrArg Table.parseKey same
      rw [Table.parseKey_renderKey, Table.parseKey_renderKey, if_pos short] at parsed
      by_contra long
      rw [if_neg long] at parsed
      cases parsed
    · rw [stem?_counter] at stem
      cases stem
    · rw [readable.noStrays] at member
      simp at member
  · intro reloadable
    refine ⟨List.eq_nil_iff_forall_not_mem.mpr fun name member => ?_, fun table member => ?_⟩
    · obtain ⟨stray, content, stored⟩ := holds.stray name member
      have stands : disk.node? (place ++ [name ++ tableEnding]) ≠ none := by
        rw [stored]
        exact Option.some_ne_none _
      exact stray.long (reloadable _ name (stem?_table stray.named) stands).1
    · have stands : disk.node? (place ++ [table.name ++ tableEnding]) ≠ none := by
        rw [holds.tableFile table member]
        exact Option.some_ne_none _
      have stem := stem?_table (holds.sound table member).named
      exact (reloadable _ table.name stem stands).2 table.lastKey (holds.counterFile table member)

namespace Session

open Scene

variable {root : Path} {disk start : Disk} {session : Session}

/-- A database that was made and not dropped is selected exactly if the second files of all its
table files can be named and hold keys of 64 bits; room for all names is enough for that. -/
theorem use_answered_iff (straight : disk.IsStraight root) (bare : disk.IsBare root)
    (opened : openAt root disk = .ok session start) (commands : List String) :
    let (exchanges, last, after) := session.executeAll start commands
    ∀ name, IsKept exchanges name →
      (∀ command, Statement.parse command = .ok (.use name) →
        ((last.execute command after).1 = .answered .done ↔
          after.IsReloadable (root.join name) (disk.endOf root ++ [name]))) ∧
      ((∀ table, MakesTable commands table → ∀ database, MakesDatabase commands database →
          (root.join database).CanName (table ++ counterEnding)) →
        insertions commands < UInt64.size →
        after.IsReloadable (root.join name) (disk.endOf root ++ [name])) := by
  obtain ⟨exchanges, ⟨store, current⟩, after, world, executed, rfl, rfl, run, final⟩ :=
    executeAll_of_openAt straight bare opened commands
  rw [executed]
  intro name kept
  obtain ⟨shelf, present⟩ := Option.ne_none_iff_exists'.mp (run.present_of_isKept kept)
  obtain ⟨-, -, holds⟩ := final.mirrors.houses_some present
  have readable := holds.readable_iff
  refine ⟨fun command reads => ?_, fun room few => ?_⟩
  · rw [← readable]
    simp only [execute, reads]
    by_cases fine : shelf.Readable
    · simp only [use_readable ⟨root⟩ final present fine, fine]
    · obtain ⟨error, failed⟩ := use_unreadable ⟨root⟩ final present fine
      simp only [failed, fine, reduceCtorEq]
  · apply readable.mp
    exact run.readable (fun database table makes asks => room table asks database makes) few present

theorem use_answered_row :
    ∃ start, openAt ⟨["r"]⟩ Disk.empty = .ok ⟨⟨⟨["r"]⟩⟩, none⟩ start ∧
      let (exchanges, last, after) := executeAll ⟨⟨⟨["r"]⟩⟩, none⟩ start demonstration
      IsKept exchanges "d" ∧ (last.execute "USE d;" after).1 = .answered .done := by
  obtain ⟨start, opened, answered⟩ : ∃ start, openAt ⟨["r"]⟩ Disk.empty =
        .ok ⟨⟨⟨["r"]⟩⟩, none⟩ start ∧
      (executeAll ⟨⟨⟨["r"]⟩⟩, none⟩ start demonstration).1 =
        demonstration.map (·, .answered .done) :=
    ⟨Disk.empty.put ["r"] .directory, by decide +kernel, by decide +kernel⟩
  have kept : IsKept (demonstration.map (·, .answered .done)) "d" :=
    ⟨[], _, _, _, rfl, by decide +kernel, by decide +kernel⟩
  have result := use_answered_iff isStraight_single (Disk.isBare_empty _) opened demonstration
  rw [← answered] at kept
  refine ⟨start, opened, kept, ?_⟩
  obtain ⟨condition, enough⟩ := result "d" kept
  refine (condition "USE d;" (by decide +kernel)).mpr (enough ?_ (by decide +kernel))
  intro table makesTable database makesDatabase
  exact room_demonstration database table makesDatabase makesTable

/-- A table with a name of 245 letters fails to be made, and its database cannot be selected. Nor
can a database whose root leads through one that was dropped. -/
theorem use_unanswered :
    (∃ start, openAt ⟨["r"]⟩ Disk.empty = .ok ⟨⟨⟨["r"]⟩⟩, none⟩ start ∧
      let (exchanges, last, after) := executeAll ⟨⟨⟨["r"]⟩⟩, none⟩ start
        ["CREATE DATABASE d;", "USE d;", sentence ["CREATE", "TABLE", longName]]
      IsKept exchanges "d" ∧ (last.execute "USE d;" after).1 ≠ .answered .done) ∧
    ∃ start, openAt ⟨["r", "d", ".."]⟩ Disk.empty = .ok ⟨⟨⟨["r", "d", ".."]⟩⟩, none⟩ start ∧
      let (exchanges, last, after) := executeAll ⟨⟨⟨["r", "d", ".."]⟩⟩, none⟩ start
        ["CREATE DATABASE e;", "DROP DATABASE d;"]
      IsKept exchanges "e" ∧ (last.execute "USE e;" after).1 ≠ .answered .done := by
  constructor
  · have opened : openAt ⟨["r"]⟩ Disk.empty =
        .ok ⟨⟨⟨["r"]⟩⟩, none⟩ (Disk.empty.put ["r"] .directory) :=
      openAt_new (by decide +kernel) rfl
    have named := isStray_longName.named
    have asks := Statement.parse_createTable named.plain
    rw [named.lower] at asks
    have makes : Statement.parse "CREATE DATABASE d;" = .ok (.createDatabase "d") := by
      decide +kernel
    have enters : Statement.parse "USE d;" = .ok (.use "d") := by decide +kernel
    obtain ⟨after, executed, -, error, failed⟩ := executeAll_loses isStraight_single
      (Disk.isBare_empty _) opened makes enters asks (by decide +kernel) (by decide +kernel)
      isReserved_longName rfl isStray_longName
    refine ⟨_, opened, ?_⟩
    rw [executed]
    refine ⟨⟨[], _, _, _, rfl, by decide +kernel, ?_⟩, by simp [failed]⟩
    intro exchange member drops
    rcases List.mem_pair.mp member with rfl | rfl
    · exact absurd drops (by decide +kernel)
    · rfl
  · have executed : executeAll ⟨⟨⟨["r", "d", ".."]⟩⟩, none⟩
        ⟨[], [(["r"], .directory), (["r", "d"], .directory)]⟩
          ["CREATE DATABASE e;", "DROP DATABASE d;"] =
        (["CREATE DATABASE e;", "DROP DATABASE d;"].map (·, .answered .done),
          ⟨⟨⟨["r", "d", ".."]⟩⟩, none⟩, ⟨[], [(["r"], .directory), (["r", "e"], .directory)]⟩) := by
      decide +kernel
    refine ⟨⟨[], [(["r"], .directory), (["r", "d"], .directory)]⟩, by decide +kernel, ?_⟩
    rw [executed]
    exact ⟨⟨[], _, _, _, rfl, by decide +kernel, by decide +kernel⟩, by decide +kernel⟩

end Session

end TextTables
