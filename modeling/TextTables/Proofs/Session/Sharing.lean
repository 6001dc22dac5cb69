import TextTables.Proofs.Session.Footprint
import TextTables.Proofs.Session.Runs
import TextTables.Proofs.Store.Overlooking

/-!
# Sessions that share a store

Several sessions work on one store, in turns. If each keeps to a database of its own, none of them
can tell that the others are there: what one changes lies in a zone that the others overlook.
-/

namespace TextTables

open Disk Location Text

/-- What one of the owners brings, in its order. -/
def ownedBy {Owner Item : Type} [DecidableEq Owner] (owner : Owner)
    (items : List (Owner × Item)) : List Item :=
  (items.filter fun item => item.1 = owner).map Prod.snd

section

variable {Owner Item : Type} [DecidableEq Owner] {owner other : Owner}

@[simp]
theorem ownedBy_cons_self (item : Item) (items : List (Owner × Item)) :
    ownedBy owner ((owner, item) :: items) = item :: ownedBy owner items := by
  simp [ownedBy]

theorem ownedBy_cons_of_ne (apart : other ≠ owner) (item : Item) (items : List (Owner × Item)) :
    ownedBy owner ((other, item) :: items) = ownedBy owner items := by
  simp [ownedBy, apart]

end

/-- The database that the statement selects, makes or drops. -/
def Statement.database? : Statement → Option String
  | use name | createDatabase name | dropDatabase name => some name
  | createTable _ _ | dropTable _ | alter _ _ _ | insert _ _ | select _ _ _ | update _ _ _
  | delete _ _ | join _ _ _ _ => none

/-- The command selects, makes and drops no other database. -/
def KeepsTo (database command : String) : Prop :=
  ∀ statement name, Statement.parse command = .ok statement → statement.database? = some name →
    name = lowercase database

theorem keepsTo_of_parse (database : String) {command : String} {statement : Statement}
    (reads : Statement.parse command = .ok statement)
    (only : ∀ name ∈ statement.database?, name = lowercase database) :
    KeepsTo database command := by
  intro other name readsOther named
  cases reads.symm.trans readsOther
  exact only name named

namespace Session

/-- Sessions execute commands in turn, each on the disk that the one before has left. -/
def executeShared {Owner : Type} [DecidableEq Owner] (sessions : Owner → Session) (disk : Disk) :
    List (Owner × String) → List (Owner × String × Response) × (Owner → Session) × Disk
  | [] => ([], sessions, disk)
  | (owner, command) :: rest =>
      let (response, next, after) := (sessions owner).execute command disk
      let (exchanges, last, final) := executeShared (Function.update sessions owner next) after rest
      ((owner, command, response) :: exchanges, last, final)

/-- A session on the store that has selected the database or none. -/
structure IsOn (root : Path) (database : String) (session : Session) : Prop where
  store : session.store = ⟨root⟩
  own : ∀ selected, session.current = some selected → selected.name = lowercase database
  confined : session.Confined

/-- The same response and the same session, on disks that agree off the zone. -/
structure SameOff (home : Location) (zone : Set Location)
    (first second : Response × Session × Disk) : Prop where
  response : first.1 = second.1
  session : first.2.1 = second.2.1
  disks : Alike home zone first.2.2 second.2.2

variable {session : Session} {root : Path} {database command : String} {home : Location}
  {zone : Set Location} {statement : Statement}

theorem sameOff_respond {Result : Type} {left right : EStateM.Result Error Disk Result}
    (both : Matches home zone left right) (taken : Result → Option Database) :
    SameOff home zone (session.respond statement (conclude session.current taken left))
      (session.respond statement (conclude session.current taken right)) := by
  cases both with
  | ok result alike => exact ⟨rfl, rfl, alike⟩
  | error error alike => exact ⟨rfl, rfl, alike⟩

namespace IsOn

theorem execute (isOn : session.IsOn root database) (keeps : KeepsTo database command)
    (disk : Disk) : (session.execute command disk).2.1.IsOn root database where
  store := (store_execute session command disk).trans isOn.store
  own selected now := by
    rcases name_of_execute now with ⟨before, earlier, same⟩ | ⟨name, after, reads, done⟩
    · rw [← same]
      exact isOn.own before earlier
    · have named : IsName name := Statement.wellSpelled_of_parse reads
      rw [Store.name_of_loadDatabase done, named.lower]
      exact keeps _ name reads rfl
  confined := isOn.confined.execute command disk

/-- What the session changes lies at its database and below it. -/
theorem changes (isOn : session.IsOn root database) (keeps : KeepsTo database command) {disk : Disk}
    (tree : disk.IsTree) :
    ChangesIn (zoneOf (disk.endOf root) (lowercase database)) disk
      (session.execute command disk).2.2 := by
  rcases execute_cases session command disk with ⟨error, -, same⟩ |
    ⟨statement, outcome, reads, spelled, effect, same⟩
  · rw [same]
    exact .refl _ tree
  · rw [same]
    apply (isOn.confined.changes tree spelled effect).weaken
    have keeps := keeps statement
    rw [isOn.store]
    cases statement with
    | use name =>
        rw [← keeps name reads rfl]
        exact counterZone_subset _ name
    | createDatabase name | dropDatabase name =>
        rw [← keeps name reads rfl]
        exact subset_rfl
    | select | join => exact Set.empty_subset _
    | createTable | dropTable | alter | insert | update | delete =>
        rintro place ⟨selected, now, inside⟩
        rw [← isOn.own selected now]
        exact tableZone_subset _ _ _ inside

/-- The session cannot tell disks apart that agree off a zone beside its database. -/
theorem sameOff (isOn : session.IsOn root database) (keeps : KeepsTo database command)
    (off : IsName (lowercase database) →
      ((⟨root⟩ : Store).directory (lowercase database)).KeepsOff home zone)
    {first second : Disk} (alike : Alike home zone first second) (tree : first.IsTree) :
    SameOff home zone (session.execute command first) (session.execute command second) := by
  cases reads : Statement.parse command with
  | error error =>
      simp only [Session.execute, reads]
      exact ⟨rfl, rfl, alike⟩
  | ok statement =>
      obtain ⟨outcome, plan, same⟩ := execute_plan session reads
      have spelled := Statement.wellSpelled_of_parse reads
      rw [isOn.store] at plan
      rw [same, same]
      have ownOff : ∀ selected, session.current = some selected →
          ((⟨root⟩ : Store).directory selected.name).KeepsOff home zone := by
        intro selected now
        have named := isOn.confined.named selected now
        rw [isOn.own selected now] at named ⊢
        exact off named
      have namedOff : ∀ name, statement.database? = some name → IsName name →
          ((⟨root⟩ : Store).directory name).KeepsOff home zone := by
        intro name names named
        obtain rfl := keeps statement name reads names
        exact off named
      cases plan with
      | refused | queried | joined => exact ⟨rfl, rfl, alike⟩
      | used name =>
          exact sameOff_respond (Store.loadDatabase_matches alike tree (namedOff name rfl spelled)) _
      | @made name allowed =>
          exact sameOff_respond
            (Store.createDatabase_overlooks (namedOff name rfl spelled) spelled _ _ alike) _
      | dropped name =>
          exact sameOff_respond (Store.dropDatabase_matches alike tree (namedOff name rfl spelled)) _
      | @created name columns selected table now shaped fresh =>
          obtain ⟨-, called, -⟩ := Table.Sound.withColumns spelled.1 spelled.2 shaped
          exact sameOff_respond (Store.createTable_overlooks (ownOff selected now)
            (called ▸ spelled.1) _ _ alike) _
      | @removed name selected table now found =>
          exact sameOff_respond (Store.deleteTable_overlooks (ownOff selected now) spelled _ _ alike) _
      | @changed _ name change selected table changed changes now found done =>
          have tableNamed := Statement.isName_of_change? spelled changes
          have called := isOn.confined.name_of_changed spelled changes now found done
          exact sameOff_respond (Store.saveTable_overlooks (ownOff selected now)
            (called ▸ tableNamed) _ _ alike) _

end IsOn

section Owners

variable {Owner : Type} {databases : Owner → String} {owner : Owner} {top : Location}

/-- The places of all databases but the owner's. -/
def othersZone (top : Location) (databases : Owner → String) (owner : Owner) : Set Location :=
  {place | ∃ other ≠ owner, place ∈ zoneOf top (lowercase (databases other))}

theorem zoneOf_subset_othersZone {other : Owner} (apart : other ≠ owner) :
    zoneOf top (lowercase (databases other)) ⊆ othersZone top databases owner :=
  fun _ inside => ⟨other, apart, inside⟩

/-- Databases of different names have nothing in common. -/
theorem notMem_othersZone
    (different : ∀ other ≠ owner, lowercase (databases other) ≠ lowercase (databases owner))
    {place : Location} (inside : place ∈ zoneOf top (lowercase (databases owner))) :
    place ∉ othersZone top databases owner := by
  rintro ⟨other, apart, under⟩
  obtain ⟨rest, rfl⟩ := inside
  obtain ⟨more, same⟩ := under
  rw [List.append_assoc, List.append_assoc, List.append_cancel_left_eq] at same
  exact different other apart (List.cons.inj same).1

variable [DecidableEq Owner] {sessions : Owner → Session} {turns : List (Owner × String)}

/-- The turns of the others make no difference to the owner. -/
theorem executeShared_sameOff
    (off : IsName (lowercase (databases owner)) →
      ((⟨root⟩ : Store).directory (lowercase (databases owner))).KeepsOff home
        (othersZone top databases owner))
    (ends : ∀ disk : Disk, disk.home = home → disk.endOf root = top) {alone shared : Disk}
    (alike : Alike home (othersZone top databases owner) alone shared) (tree : alone.IsTree)
    (sharedTree : shared.IsTree) (opened : ∀ other, (sessions other).IsOn root (databases other))
    (keeps : ∀ turn ∈ turns, KeepsTo (databases turn.1) turn.2) :
    ownedBy owner (executeShared sessions shared turns).1 =
        ((sessions owner).executeAll alone (ownedBy owner turns)).1 ∧
      (executeShared sessions shared turns).2.1 owner =
        ((sessions owner).executeAll alone (ownedBy owner turns)).2.1 ∧
      Alike home (othersZone top databases owner)
        ((sessions owner).executeAll alone (ownedBy owner turns)).2.2
        (executeShared sessions shared turns).2.2 := by
  induction turns generalizing sessions alone shared with
  | nil => exact ⟨rfl, rfl, alike⟩
  | cons turn rest inductionHypothesis =>
      obtain ⟨other, command⟩ := turn
      have keepsHere := keeps (other, command) List.mem_cons_self
      have keepsLater := fun turn member => keeps turn (List.mem_cons_of_mem _ member)
      have isOn := (opened other).execute keepsHere shared
      have changed := (opened other).changes keepsHere sharedTree
      cases executed : (sessions other).execute command shared with
      | mk response outcome =>
          obtain ⟨next, after⟩ := outcome
          simp only [executed] at isOn changed
          have openedLater : ∀ another,
              (Function.update sessions other next another).IsOn root (databases another) := by
            intro another
            by_cases here : another = other
            · subst here
              rwa [Function.update_self]
            · rw [Function.update_of_ne here]
              exact opened another
          simp only [executeShared, executed]
          by_cases here : other = owner
          · subst here
            have same := (opened other).sameOff keepsHere off alike tree
            have changedToo := (opened other).changes keepsHere tree
            cases executedToo : (sessions other).execute command alone with
            | mk reply outcome =>
                obtain ⟨nextAlone, afterAlone⟩ := outcome
                rw [executed, executedToo] at same
                rw [executedToo] at changedToo
                obtain ⟨response, session, disks⟩ := same
                have later := inductionHypothesis disks changedToo.tree changed.tree openedLater
                  keepsLater
                rw [ownedBy_cons_self, ownedBy_cons_self]
                simp only [executeAll, executedToo]
                rw [Function.update_self] at later
                dsimp only at response session
                rw [response, session]
                exact ⟨congrArg _ later.1, later.2⟩
          · have disks : Alike home (othersZone top databases owner) alone after := by
              refine ⟨alike.home, alike.agree.trans (changed.agree.weaken ?_)⟩
              rw [ends shared (alike.agree.home.trans alike.home)]
              exact zoneOf_subset_othersZone here
            have later := inductionHypothesis disks tree changed.tree openedLater keepsLater
            rw [ownedBy_cons_of_ne here, ownedBy_cons_of_ne here]
            rwa [Function.update_of_ne (Ne.symm here)] at later

end Owners

end Session

end TextTables
