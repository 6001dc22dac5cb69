import Mathlib

/-!
# Sequences of steps

Work on a state goes step by step. When a sequence succeeds, each of its steps has; when it
fails, one step has failed in the state that the steps before it left.
-/

namespace TextTables.Work

universe u

variable {Failure State First Second : Type u}

instance decidableEqResult [DecidableEq Failure] [DecidableEq State] [DecidableEq First] :
    DecidableEq (EStateM.Result Failure State First)
  | .ok result state, .ok other next =>
      decidable_of_iff (result = other ∧ state = next) (by simp)
  | .error failure state, .error other next =>
      decidable_of_iff (failure = other ∧ state = next) (by simp)
  | .ok _ _, .error _ _ => isFalse nofun
  | .error _ _, .ok _ _ => isFalse nofun

theorem bind_ok {work : EStateM Failure State First} {state middle : State} {result : First}
    (done : work state = .ok result middle) (next : First → EStateM Failure State Second) :
    (work >>= next) state = next result middle := by
  simp [bind, EStateM.bind, done]

theorem bind_error {work : EStateM Failure State First} {state middle : State} {failure : Failure}
    (failed : work state = .error failure middle) (next : First → EStateM Failure State Second) :
    (work >>= next) state = .error failure middle := by
  simp [bind, EStateM.bind, failed]

theorem bind_eq_ok_iff {work : EStateM Failure State First}
    {next : First → EStateM Failure State Second} {state after : State} {result : Second} :
    (work >>= next) state = .ok result after ↔
      ∃ first middle, work state = .ok first middle ∧ next first middle = .ok result after := by
  cases outcome : work state with
  | ok first middle =>
      rw [bind_ok outcome]
      constructor
      · exact fun finished => ⟨first, middle, rfl, finished⟩
      · rintro ⟨_, _, same, finished⟩
        cases same
        exact finished
  | error failure middle => simp [bind_error outcome]

theorem bind_eq_error_iff {work : EStateM Failure State First}
    {next : First → EStateM Failure State Second} {state after : State} {failure : Failure} :
    (work >>= next) state = .error failure after ↔
      work state = .error failure after ∨
        ∃ first middle, work state = .ok first middle ∧
          next first middle = .error failure after := by
  cases outcome : work state with
  | ok first middle =>
      rw [bind_ok outcome]
      constructor
      · exact fun failed => .inr ⟨first, middle, rfl, failed⟩
      · rintro (impossible | ⟨_, _, same, failed⟩)
        · cases impossible
        · cases same
          exact failed
  | error other middle => simp [bind_error outcome]

/-- The state that the work leaves, whether it succeeds or fails. -/
def left {Result : Type u} : EStateM.Result Failure State Result → State
  | .ok _ state => state
  | .error _ state => state

/-- What each step keeps up, the sequence of both keeps up. -/
theorem left_bind (property : State → Prop) {work : EStateM Failure State First}
    {next : First → EStateM Failure State Second} {state : State}
    (first : property (left (work state)))
    (second : ∀ result middle, property middle → property (left (next result middle))) :
    property (left ((work >>= next) state)) := by
  cases outcome : work state with
  | ok result middle =>
      rw [outcome] at first
      rw [bind_ok outcome]
      exact second result middle first
  | error failure middle =>
      rw [outcome] at first
      rwa [bind_error outcome]

@[simp]
theorem pure_apply (result : First) (state : State) :
    (pure result : EStateM Failure State First) state = .ok result state := rfl

@[simp]
theorem ofExcept_ok (result : First) (state : State) :
    (ofExcept (.ok result : Except Failure First) : EStateM Failure State First) state =
      .ok result state := rfl

@[simp]
theorem ofExcept_error (failure : Failure) (state : State) :
    (ofExcept (.error failure : Except Failure First) : EStateM Failure State First) state =
      .error failure state := rfl

theorem ofExcept_eq_ok_iff {outcome : Except Failure First} {state after : State}
    {result : First} :
    (ofExcept outcome : EStateM Failure State First) state = .ok result after ↔
      outcome = .ok result ∧ after = state := by
  cases outcome <;> simp [eq_comm]

theorem except_bind_eq_ok_iff {outcome : Except Failure First}
    {next : First → Except Failure Second} {result : Second} :
    (outcome >>= next) = .ok result ↔
      ∃ first, outcome = .ok first ∧ next first = .ok result := by
  cases outcome <;> simp [bind, Except.bind]

theorem mapError_eq_ok_iff {Other : Type u} {outcome : Except Failure First}
    {translate : Failure → Other} {result : First} :
    outcome.mapError translate = .ok result ↔ outcome = .ok result := by
  cases outcome <;> simp [Except.mapError]

theorem mapM_cons_eq_ok {step : First → Except Failure Second} {item : First}
    {items : List First} {results : List Second}
    (done : (item :: items).mapM step = .ok results) :
    ∃ result others, step item = .ok result ∧ items.mapM step = .ok others ∧
      results = result :: others := by
  rw [List.mapM_cons] at done
  obtain ⟨result, first, following⟩ := except_bind_eq_ok_iff.mp done
  obtain ⟨others, later, shape⟩ := except_bind_eq_ok_iff.mp following
  cases shape
  exact ⟨result, others, first, later, rfl⟩

/-- Every result of a list of steps is the result of one of them. -/
theorem exists_of_mem_mapM {step : First → Except Failure Second} {items : List First}
    {results : List Second} (done : items.mapM step = .ok results) {result : Second}
    (member : result ∈ results) : ∃ item ∈ items, step item = .ok result := by
  induction items generalizing results with
  | nil =>
      cases done
      simp at member
  | cons item rest inductionHypothesis =>
      obtain ⟨found, more, first, others, rfl⟩ := mapM_cons_eq_ok done
      rcases List.mem_cons.mp member with rfl | later
      · exact ⟨item, List.mem_cons_self, first⟩
      · obtain ⟨other, inside, there⟩ := inductionHypothesis others later
        exact ⟨other, List.mem_cons_of_mem _ inside, there⟩

/-- Steps that all succeed come to the list of their results. -/
theorem mapM_eq_ok {step : First → Except Failure Second} {result : First → Second}
    {items : List First} (each : ∀ item ∈ items, step item = .ok (result item)) :
    items.mapM step = .ok (items.map result) := by
  induction items with
  | nil => rfl
  | cons item rest inductionHypothesis =>
      have others := inductionHypothesis fun other member => each other (.tail _ member)
      rw [List.mapM_cons, each item List.mem_cons_self, others]
      rfl

/-- Beside each item stands the result of its step. -/
theorem eq_ok_of_mem_zip {step : First → Except Failure Second} {items : List First}
    {results : List Second} (done : items.mapM step = .ok results) {pair : First × Second}
    (member : pair ∈ items.zip results) : step pair.1 = .ok pair.2 := by
  induction items generalizing results with
  | nil => simp at member
  | cons item rest inductionHypothesis =>
      obtain ⟨result, more, first, others, rfl⟩ := mapM_cons_eq_ok done
      rcases List.mem_cons.mp member with rfl | later
      · exact first
      · exact inductionHypothesis others later

/-- What each step of a fold keeps up, the whole fold keeps up. -/
theorem foldlM_preserves {step : First → Second → EStateM Failure State First} {items : List Second}
    (invariant : First → State → Prop)
    (preserved : ∀ item ∈ items, ∀ sofar state next middle, invariant sofar state →
      step sofar item state = .ok next middle → invariant next middle)
    {start final : First} {state after : State} (holds : invariant start state)
    (done : (items.foldlM step start : EStateM Failure State First) state = .ok final after) :
    invariant final after := by
  induction items generalizing start state with
  | nil =>
      cases done
      exact holds
  | cons item rest inductionHypothesis =>
      rw [List.foldlM_cons] at done
      obtain ⟨next, middle, first, others⟩ := bind_eq_ok_iff.mp done
      have kept := preserved item List.mem_cons_self _ _ _ _ holds first
      exact inductionHypothesis (fun other member => preserved other (.tail _ member)) kept others

/-- What each step of a fold keeps up, the fold keeps up, even if one of the steps fails. -/
theorem left_foldlM {step : First → Second → EStateM Failure State First} {items : List Second}
    (property : State → Prop)
    (preserved : ∀ item ∈ items, ∀ sofar state, property state →
      property (left (step sofar item state)))
    {start : First} {state : State} (holds : property state) :
    property (left ((items.foldlM step start : EStateM Failure State First) state)) := by
  induction items generalizing start state with
  | nil => exact holds
  | cons item rest inductionHypothesis =>
      rw [List.foldlM_cons]
      refine left_bind property (preserved item List.mem_cons_self _ _ holds) fun _ _ => ?_
      exact inductionHypothesis fun other member => preserved other (.tail _ member)

/-- What each step keeps up, all of them keep up, even if one fails. -/
theorem left_forM {step : First → EStateM Failure State PUnit} {items : List First}
    (property : State → Prop)
    (preserved : ∀ item ∈ items, ∀ state, property state → property (left (step item state)))
    {state : State} (holds : property state) :
    property (left ((items.forM step : EStateM Failure State PUnit) state)) := by
  induction items generalizing state with
  | nil => exact holds
  | cons item rest inductionHypothesis =>
      refine left_bind property (preserved item List.mem_cons_self _ holds) fun _ _ => ?_
      exact inductionHypothesis fun other member => preserved other (.tail _ member)

/-- Every item has its result. -/
theorem length_of_mapM {step : First → Except Failure Second} {items : List First}
    {results : List Second} (done : items.mapM step = .ok results) :
    results.length = items.length := by
  induction items generalizing results with
  | nil =>
      cases done
      rfl
  | cons item rest inductionHypothesis =>
      obtain ⟨found, more, first, others, rfl⟩ := mapM_cons_eq_ok done
      rw [List.length_cons, List.length_cons, inductionHypothesis others]

/-- Of steps that are refused or come to a result, the first one that is refused counts. -/
theorem mapM_eq_findSome? {step : First → Except Failure Second}
    {refusal? : First → Option Failure} {result : First → Second}
    (each : ∀ item, step item = (refusal? item).elim (.ok (result item)) .error)
    (items : List First) :
    items.mapM step = (items.findSome? refusal?).elim (.ok (items.map result)) .error := by
  induction items with
  | nil => rfl
  | cons item rest inductionHypothesis =>
      rw [List.mapM_cons, each, List.findSome?_cons]
      cases refusal? item with
      | some failure => rfl
      | none =>
          dsimp only [Option.elim]
          rw [inductionHypothesis]
          cases rest.findSome? refusal? <;> rfl

theorem exists_error_iff {outcome : Except Failure First} :
    (∃ failure, outcome = .error failure) ↔ ∀ result, outcome ≠ .ok result := by
  cases outcome <;> simp

theorem zip_map_self (items : List First) (mark : First → Second) :
    items.zip (items.map mark) = items.map fun item => (item, mark item) := by
  have paired := List.zip_map' (f := id) (g := mark) (l := items)
  rwa [List.map_id] at paired

end TextTables.Work
