import TextTables.Proofs.Disk.Agreement
import TextTables.Proofs.Disk.Operations

/-!
# Work that overlooks a zone

Work that looks at no place of a zone comes to the same result on two disks that agree off it, and
leaves two that agree off it still. This goes from step to step, so that it is shown of each
operation on the disk for the paths that keep off the zone, and then of everything made of them.
-/

namespace TextTables

open Location

/-- The path leads neither through the zone nor to a place above it. -/
structure Path.KeepsOff (home : Location) (zone : Set Location) (path : Path) : Prop where
  way : ∀ disk : Disk, disk.home = home →
    ∀ passed ∈ trail (disk.start path) path.segments, passed ∉ zone
  below : ∀ disk : Disk, disk.home = home → ∀ rest, reach (disk.start path) path.segments ++ rest ∉ zone

namespace Disk

variable {home : Location} {zone : Set Location} {first second : Disk} {path : Path}
  {place : Location}

/-- Disks with the working directory that agree off the zone. -/
structure Alike (home : Location) (zone : Set Location) (first second : Disk) : Prop where
  home : first.home = home
  agree : AgreeOff zone first second

namespace Alike

theorem put (alike : Alike home zone first second) (place : Location) (node : Node) :
    Alike home zone (first.put place node) (second.put place node) :=
  ⟨(home_put _ _ _).trans alike.home, alike.agree.put place node⟩

theorem erase (alike : Alike home zone first second) (place : Location) :
    Alike home zone (first.erase place) (second.erase place) :=
  ⟨alike.home, alike.agree.erase place⟩

theorem clear (alike : Alike home zone first second) (place : Location) :
    Alike home zone (first.clear place) (second.clear place) :=
  ⟨alike.home, alike.agree.clear place⟩

theorem locate (alike : Alike home zone first second) (off : path.KeepsOff home zone) :
    second.locate path = first.locate path :=
  alike.agree.locate (off.way first alike.home)

/-- What stands at the end of the path and below it is not in the zone. -/
theorem apart (alike : Alike home zone first second) (off : path.KeepsOff home zone)
    (located : first.locate path = .ok place) (rest : List String) : place ++ rest ∉ zone := by
  unfold Disk.locate at located
  split at located
  · cases located
  · obtain rfl := reach_eq_of_follow located
    exact off.below first alike.home rest

theorem node? (alike : Alike home zone first second) (off : path.KeepsOff home zone)
    (located : first.locate path = .ok place) : second.node? place = first.node? place := by
  apply alike.agree.node?
  simpa using alike.apart off located []

theorem names (alike : Alike home zone first second) (off : path.KeepsOff home zone)
    (located : first.locate path = .ok place) : second.names place = first.names place :=
  alike.agree.names fun name => alike.apart off located [name]

theorem lookup? (alike : Alike home zone first second) (off : path.KeepsOff home zone) :
    second.lookup? path = first.lookup? path := by
  unfold Disk.lookup?
  rw [alike.locate off]
  cases located : first.locate path with
  | error fault => rfl
  | ok place => exact alike.node? off located

end Alike

/-- The same result, and disks that agree off the zone. -/
inductive Matches {Failure Result : Type} (home : Location) (zone : Set Location) :
    EStateM.Result Failure Disk Result → EStateM.Result Failure Disk Result → Prop
  | ok (result : Result) {first second : Disk} (alike : Alike home zone first second) :
      Matches home zone (.ok result first) (.ok result second)
  | error (failure : Failure) {first second : Disk} (alike : Alike home zone first second) :
      Matches home zone (.error failure first) (.error failure second)

/-- The work looks at nothing in the zone. -/
def Overlooks {Failure Result : Type} (home : Location) (zone : Set Location)
    (work : EStateM Failure Disk Result) : Prop :=
  ∀ first second, Alike home zone first second → Matches home zone (work first) (work second)

namespace Overlooks

variable {Failure Result Other : Type} {work : EStateM Failure Disk Result}

theorem pure (result : Result) :
    Overlooks home zone (Pure.pure result : EStateM Failure Disk Result) :=
  fun _ _ alike => .ok result alike

theorem of_ofExcept (outcome : Except Failure Result) :
    Overlooks home zone (ofExcept outcome : EStateM Failure Disk Result) := by
  cases outcome with
  | ok result => exact fun _ _ alike => .ok result alike
  | error failure => exact fun _ _ alike => .error failure alike

theorem check {outcome : Except Failure Result} {next : Result → EStateM Failure Disk Other}
    (rest : ∀ result, outcome = .ok result → Overlooks home zone (next result)) :
    Overlooks home zone (ofExcept outcome >>= next) := by
  cases outcome with
  | ok result => exact rest result rfl
  | error failure => exact fun _ _ alike => .error failure alike

theorem bind {next : Result → EStateM Failure Disk Other} (first : Overlooks home zone work)
    (second : ∀ result, Overlooks home zone (next result)) :
    Overlooks home zone (work >>= next) := by
  intro left right alike
  have both := first left right alike
  revert both
  cases here : work left <;> cases there : work right <;> rintro ⟨⟩
  · rename_i alike
    rw [Work.bind_ok here, Work.bind_ok there]
    exact second _ _ _ alike
  · rename_i alike
    rw [Work.bind_error here, Work.bind_error there]
    exact .error _ alike

theorem adaptExcept (overlooks : Overlooks home zone work) (translate : Failure → Other) :
    Overlooks home zone (EStateM.adaptExcept translate work) := by
  intro left right alike
  have both := overlooks left right alike
  unfold EStateM.adaptExcept
  revert both
  cases work left <;> cases work right <;> rintro ⟨⟩
  · rename_i alike
    exact .ok _ alike
  · rename_i alike
    exact .error _ alike

theorem foldlM {Item : Type} {step : Result → Item → EStateM Failure Disk Result}
    {items : List Item} (each : ∀ item ∈ items, ∀ sofar, Overlooks home zone (step sofar item))
    (start : Result) : Overlooks home zone (items.foldlM step start) := by
  induction items generalizing start with
  | nil => exact pure start
  | cons item rest inductionHypothesis =>
      rw [List.foldlM_cons]
      apply bind (each item List.mem_cons_self start)
      exact inductionHypothesis fun other member => each other (.tail _ member)

theorem forM {Item : Type} {step : Item → EStateM Failure Disk PUnit} {items : List Item}
    (each : ∀ item ∈ items, Overlooks home zone (step item)) :
    Overlooks home zone (items.forM step) := by
  induction items with
  | nil => exact pure PUnit.unit
  | cons item rest inductionHypothesis =>
      apply bind (each item List.mem_cons_self)
      intro _
      exact inductionHypothesis fun other member => each other (.tail _ member)

end Overlooks

end Disk

namespace DiskM

open Disk

variable {home : Location} {zone : Set Location} {path : Path}

variable {Result : Type} {first second : Disk}

/-- Work that starts at the place of a path, and at what stands there. -/
theorem matches_located (alike : Alike home zone first second) (off : path.KeepsOff home zone)
    {left right : Location → EStateM.Result Fault Disk Result}
    (found : ∀ place, second.node? place = first.node? place →
      second.names place = first.names place → Matches home zone (left place) (right place)) :
    Matches home zone
      (match first.locate path with
        | .error fault => .error fault first
        | .ok place => left place)
      (match second.locate path with
        | .error fault => .error fault second
        | .ok place => right place) := by
  rw [alike.locate off]
  cases located : first.locate path with
  | error fault => exact .error fault alike
  | ok place => exact found place (alike.node? off located) (alike.names off located)

theorem readText_overlooks (off : path.KeepsOff home zone) :
    Overlooks home zone (readText path) := by
  intro first second alike
  rw [readText_apply, readText_apply]
  apply matches_located alike off
  intro place node _
  rw [node]
  rcases first.node? place with - | - | content
  · exact .error _ alike
  · exact .error _ alike
  · dsimp only
    cases String.fromUTF8? content with
    | none => exact .error _ alike
    | some text => exact .ok text alike

theorem writeText_overlooks (off : path.KeepsOff home zone) (text : String) :
    Overlooks home zone (writeText path text) := by
  intro first second alike
  rw [writeText_apply, writeText_apply]
  apply matches_located alike off
  intro place node _
  rw [node]
  split
  · exact .error _ alike
  · exact .ok () (alike.put place _)

theorem createFile_overlooks (off : path.KeepsOff home zone) :
    Overlooks home zone (createFile path) := by
  intro first second alike
  rw [createFile_apply, createFile_apply]
  apply matches_located alike off
  intro place node _
  rw [node]
  cases first.node? place with
  | some stored => exact .error _ alike
  | none => exact .ok () (alike.put place _)

theorem makeDirectory_overlooks {name : String} (proper : IsFileName name)
    (off : (path.join name).KeepsOff home zone) :
    Overlooks home zone (makeDirectory (path.join name)) := by
  intro first second alike
  rw [makeDirectory_apply, makeDirectory_apply, locateNew_join proper, locateNew_join proper]
  apply matches_located alike off
  intro place node _
  rw [node]
  cases first.node? place with
  | some stored => exact .error _ alike
  | none => exact .ok () (alike.put place _)

theorem removeFile_overlooks (off : path.KeepsOff home zone) :
    Overlooks home zone (removeFile path) := by
  intro first second alike
  rw [removeFile_apply, removeFile_apply]
  apply matches_located alike off
  intro place node _
  rw [node]
  rcases first.node? place with - | - | content
  · exact .error _ alike
  · exact .error _ alike
  · exact .ok () (alike.erase place)

theorem removeDirectory_overlooks (off : path.KeepsOff home zone) :
    Overlooks home zone (removeDirectory path) := by
  intro first second alike
  rw [removeDirectory_apply, removeDirectory_apply]
  apply matches_located alike off
  intro place node names
  rw [node, names]
  rcases first.node? place with - | - | content
  · exact .error _ alike
  · dsimp only
    split
    · exact .error _ alike
    · split
      · exact .ok () (alike.erase place)
      · exact .error _ alike
  · exact .error _ alike

theorem removeAll_overlooks (off : path.KeepsOff home zone) :
    Overlooks home zone (removeAll path) := by
  intro first second alike
  rw [removeAll_apply, removeAll_apply]
  apply matches_located alike off
  intro place node _
  rw [node]
  rcases first.node? place with - | - | content
  · exact .error _ alike
  · exact removeDirectory_overlooks off _ _ (alike.clear place)
  · exact .ok () (alike.erase place)

end DiskM

end TextTables
