import TextTables.Proofs.Work
import TextTables.Session

/-!
# What a failed command leaves in memory

A statement checks and works on the disk first, and takes tables over or drops them from memory
in a last step that cannot fail. So a command that fails leaves the session as it was, whichever
step of it fails.
-/

namespace TextTables

namespace SessionM

variable {First Second : Type}

/-- Work that fails leaves the selected database as it was. -/
def FailsSafely (work : SessionM First) : Prop :=
  ∀ space next error, work space = .error error next → next.current = space.current

/-- Work that leaves the selected database as it was, whether it succeeds or fails. -/
structure KeepsSelection (work : SessionM First) : Prop where
  success : ∀ space next result, work space = .ok result next → next.current = space.current
  failure : FailsSafely work

/-- Work that has no step that can fail. -/
def NeverFails (work : SessionM First) : Prop :=
  ∀ space next error, work space ≠ .error error next

theorem KeepsSelection.bind {work : SessionM First} {next : First → SessionM Second}
    (first : KeepsSelection work) (second : ∀ result, KeepsSelection (next result)) :
    KeepsSelection (work >>= next) := by
  constructor
  · intro space after result finished
    obtain ⟨middle, between, started, rest⟩ := Work.bind_eq_ok_iff.mp finished
    exact ((second middle).success _ _ _ rest).trans (first.success _ _ _ started)
  · intro space after error failed
    rcases Work.bind_eq_error_iff.mp failed with early | ⟨middle, between, started, late⟩
    · exact first.failure _ _ _ early
    · exact ((second middle).failure _ _ _ late).trans (first.success _ _ _ started)

/-- Steps that keep the selection can stand before any work that fails safely. -/
theorem KeepsSelection.before {work : SessionM First} {next : First → SessionM Second}
    (first : KeepsSelection work) (second : ∀ result, FailsSafely (next result)) :
    FailsSafely (work >>= next) := by
  intro space after error failed
  rcases Work.bind_eq_error_iff.mp failed with early | ⟨middle, between, started, late⟩
  · exact first.failure _ _ _ early
  · exact (second middle _ _ _ late).trans (first.success _ _ _ started)

/-- Steps that cannot fail can stand behind any work that fails safely. -/
theorem FailsSafely.andThen {work : SessionM First} {next : First → SessionM Second}
    (first : FailsSafely work) (second : ∀ result, NeverFails (next result)) :
    FailsSafely (work >>= next) := by
  intro space after error failed
  rcases Work.bind_eq_error_iff.mp failed with early | ⟨middle, between, _, late⟩
  · exact first _ _ _ early
  · exact absurd late (second middle _ _ _)

theorem NeverFails.failsSafely {work : SessionM First} (sure : NeverFails work) :
    FailsSafely work :=
  fun _ _ _ failed => absurd failed (sure _ _ _)

theorem neverFails_pure (result : First) : NeverFails (pure result) := by
  intro space next error failed
  cases failed

theorem neverFails_select (database : Database) : NeverFails (select database) := by
  intro space next error failed
  cases failed

theorem neverFails_deselect (name : String) : NeverFails (deselect name) := by
  intro space next error failed
  cases failed

theorem keepsSelection_ofExcept (outcome : Except Error First) :
    KeepsSelection (ofExcept outcome) := by
  constructor <;> intro space next other ended <;> cases outcome <;> cases ended <;> rfl

/-- Whatever the work does to the disk, it does not reach the selected database. -/
theorem keepsSelection_onDisk (work : StoreM First) : KeepsSelection (onDisk work) := by
  constructor <;> intro space next other ended <;> unfold onDisk at ended <;>
    cases outcome : work space.disk <;> rw [outcome] at ended <;> cases ended <;> rfl

theorem keepsSelection_selected : KeepsSelection selected := by
  constructor <;> intro space next other ended <;> obtain ⟨current, disk⟩ := space <;>
    cases current <;> cases ended <;> rfl

end SessionM

namespace Session

open SessionM

theorem changeTable_failsSafely (store : Store) (name : String)
    (change : Table → Except SchemaError Table) : FailsSafely (changeTable store name change) := by
  refine keepsSelection_selected.before fun database => ?_
  refine (keepsSelection_ofExcept _).before fun table => ?_
  refine (keepsSelection_ofExcept _).before fun changed => ?_
  refine (keepsSelection_onDisk _).before fun _ => ?_
  exact (neverFails_select _).failsSafely

theorem createTable_failsSafely (store : Store) (name : String) (columns : List String) :
    FailsSafely (createTable store name columns) := by
  refine keepsSelection_selected.before fun database => ?_
  refine (keepsSelection_ofExcept _).before fun _ => ?_
  refine (keepsSelection_ofExcept _).before fun table => ?_
  refine (keepsSelection_onDisk _).before fun _ => ?_
  refine (keepsSelection_ofExcept _).before fun extended => ?_
  exact (neverFails_select _).failsSafely

theorem dropTable_failsSafely (store : Store) (name : String) :
    FailsSafely (dropTable store name) := by
  refine keepsSelection_selected.before fun database => ?_
  refine (keepsSelection_ofExcept _).before fun _ => ?_
  refine (keepsSelection_onDisk _).before fun _ => ?_
  refine (keepsSelection_ofExcept _).before fun parts => ?_
  exact (neverFails_select _).failsSafely

/-- Work behind a check of a name, with an answer at its end, fails as safely as the work. -/
theorem checked_failsSafely {work : SessionM Unit} (name : String) (answer : Answer)
    (safe : FailsSafely work) :
    FailsSafely (do ofExcept (checkName name); work; return answer) := by
  apply (keepsSelection_ofExcept _).before
  intro _
  exact safe.andThen fun _ => neverFails_pure _

theorem query_keepsSelection (name : String) (columns : Selection)
    (condition : Option Condition) : KeepsSelection (query name columns condition) := by
  refine keepsSelection_selected.bind fun database => ?_
  refine (keepsSelection_ofExcept _).bind fun table => ?_
  exact keepsSelection_ofExcept _

theorem perform_failsSafely (store : Store) (statement : Statement) :
    FailsSafely (perform store statement) := by
  cases statement with
  | use name =>
      refine (keepsSelection_ofExcept _).before fun _ => ?_
      refine (keepsSelection_onDisk _).before fun database => ?_
      exact (neverFails_select _).failsSafely.andThen fun _ => neverFails_pure _
  | createDatabase name => exact checked_failsSafely _ _ (keepsSelection_onDisk _).failure
  | dropDatabase name =>
      refine (keepsSelection_ofExcept _).before fun _ => ?_
      refine (keepsSelection_onDisk _).before fun _ => ?_
      exact (neverFails_deselect _).failsSafely.andThen fun _ => neverFails_pure _
  | createTable name columns =>
      exact checked_failsSafely _ _ (createTable_failsSafely store name columns)
  | dropTable name => exact checked_failsSafely _ _ (dropTable_failsSafely store name)
  | alter name change column => exact checked_failsSafely _ _ (changeTable_failsSafely store name _)
  | insert name values => exact checked_failsSafely _ _ (changeTable_failsSafely store name _)
  | update name assignments condition =>
      exact checked_failsSafely _ _ (changeTable_failsSafely store name _)
  | delete name condition => exact checked_failsSafely _ _ (changeTable_failsSafely store name _)
  | select columns name condition =>
      refine (keepsSelection_ofExcept _).before fun _ => ?_
      exact (query_keepsSelection name columns condition).before fun _ =>
        (neverFails_pure _).failsSafely
  | join first second firstAttribute secondAttribute =>
      refine (keepsSelection_ofExcept _).before fun _ => ?_
      refine (keepsSelection_ofExcept _).before fun _ => ?_
      refine keepsSelection_selected.before fun database => ?_
      exact (keepsSelection_ofExcept _).before fun _ => (neverFails_pure _).failsSafely

/-- A command that fails leaves the session as it was, whatever the disk is. -/
theorem eq_of_execute_failed {session next : Session} {command activity : String} {error : Error}
    {disk after : Disk}
    (failed : session.execute command disk = (.failed activity error, next, after)) :
    next = session := by
  unfold execute at failed
  split at failed
  · cases failed
    rfl
  · split at failed
    · cases failed
    · rename_i statement _ _ space performed
      cases failed
      have kept : space.current = session.current := perform_failsSafely _ _ _ _ _ performed
      rw [kept]

/-- A session on a table whose second file cannot be written, since a directory is in its place. -/
def blockedSession : Session :=
  ⟨⟨⟨["r"]⟩⟩, some ⟨"d", [⟨"t", ["id", "a"], [], 0⟩]⟩⟩

def blockedDisk : Disk :=
  ⟨[], [(["r"], .directory), (["r", "d"], .directory),
    (["r", "d", "t.tab"], .file "id\ta".toUTF8), (["r", "d", "t_config.tab"], .directory)]⟩

/-- A row whose primary key cannot be written is not taken over. -/
theorem eq_of_execute_failed_insert :
    let (response, next, _) := blockedSession.execute "INSERT INTO t VALUES ('y');" blockedDisk
    response = .failed "Failed inserting into table" (.disk .isDirectory) ∧
      next = blockedSession := by
  have failed : (blockedSession.execute "INSERT INTO t VALUES ('y');" blockedDisk).1 =
      .failed "Failed inserting into table" (.disk .isDirectory) := by
    decide +kernel
  exact ⟨failed, eq_of_execute_failed (Prod.ext failed rfl)⟩

end Session

end TextTables
