/-!
# Outcomes

An outcome is how an activity ends: the state that it leaves, what it reported on the way, and
whether it failed. A failed activity keeps the state and the reports that it had reached.
`andThen` goes on from a success, `sequence` works through a list of items, and `iterate` repeats
one step. `sequence_append` says that a list is worked through front to back.
-/

namespace ChannelAsm

/-- The end of an activity. -/
structure Outcome (State Report Failure : Type) where
  state : State
  reports : Array Report
  result : Except Failure Unit

namespace Outcome

variable {State Report Failure Reason Item : Type}

/-- Success with nothing to report. -/
def done (state : State) : Outcome State Report Failure :=
  ⟨state, #[], .ok ()⟩

/-- Success with the given reports. -/
def reporting (state : State) (reports : Array Report) : Outcome State Report Failure :=
  ⟨state, reports, .ok ()⟩

/-- Failure with nothing to report. -/
def fail (state : State) (failure : Failure) : Outcome State Report Failure :=
  ⟨state, #[], .error failure⟩

/-- The next state of a step, or the present one when the step fails. -/
def ofExcept (state : State) (step : Except Failure State) : Outcome State Report Failure :=
  match step with
  | .ok next => done next
  | .error failure => fail state failure

/-- Go on from the state that a success leaves. A failure ends the activity. -/
def andThen (outcome : Outcome State Report Failure)
    (next : State → Outcome State Report Failure) : Outcome State Report Failure :=
  match outcome.result with
  | .error _ => outcome
  | .ok () =>
      let following := next outcome.state
      { following with reports := outcome.reports ++ following.reports }

/-- The outcome with its failure put differently. -/
def mapFailure (f : Failure → Reason) (outcome : Outcome State Report Failure) :
    Outcome State Report Reason :=
  ⟨outcome.state, outcome.reports, outcome.result.mapError f⟩

/-- Work through the items in order, up to the first that fails. -/
def sequence (step : Item → State → Outcome State Report Failure) (items : List Item)
    (state : State) : Outcome State Report Failure :=
  items.foldl (fun outcome item => outcome.andThen (step item)) (done state)

/-- Repeat a step after an outcome, at most the given number of times and up to the first that
fails; also how often the step was taken, on top of a count. -/
def iterate (step : State → Outcome State Report Failure) :
    Nat → Nat → Outcome State Report Failure → Nat × Outcome State Report Failure
  | 0, count, outcome => (count, outcome)
  | times + 1, count, outcome =>
      match outcome.result with
      | .error _ => (count, outcome)
      | .ok () => iterate step times (count + 1) (outcome.andThen step)

/-- What follows a success starts from its state and adds to its reports. -/
@[simp]
theorem ok_andThen (state : State) (reports : Array Report)
    (next : State → Outcome State Report Failure) :
    (⟨state, reports, .ok ()⟩ : Outcome State Report Failure).andThen next =
      ⟨(next state).state, reports ++ (next state).reports, (next state).result⟩ :=
  rfl

/-- Nothing follows a failure. -/
@[simp]
theorem error_andThen (state : State) (reports : Array Report) (failure : Failure)
    (next : State → Outcome State Report Failure) :
    (⟨state, reports, .error failure⟩ : Outcome State Report Failure).andThen next =
      ⟨state, reports, .error failure⟩ :=
  rfl

/-- A success stays as it is when failures are put differently. -/
@[simp]
theorem mapFailure_ok (f : Failure → Reason) (state : State) (reports : Array Report) :
    (⟨state, reports, .ok ()⟩ : Outcome State Report Failure).mapFailure f =
      ⟨state, reports, .ok ()⟩ :=
  rfl

/-- Putting a failure differently keeps the state and the reports. -/
@[simp]
theorem mapFailure_error (f : Failure → Reason) (state : State) (reports : Array Report)
    (failure : Failure) :
    (⟨state, reports, .error failure⟩ : Outcome State Report Failure).mapFailure f =
      ⟨state, reports, .error (f failure)⟩ :=
  rfl

/-- Doing nothing first changes nothing. -/
@[simp]
theorem done_andThen (state : State) (next : State → Outcome State Report Failure) :
    (done state).andThen next = next state := by
  simp [andThen, done]

/-- Doing nothing afterwards changes nothing. -/
@[simp]
theorem andThen_done (outcome : Outcome State Report Failure) : outcome.andThen done = outcome := by
  rcases outcome with ⟨state, reports, failure | ⟨⟨⟩⟩⟩ <;> simp [andThen, done]

/-- Going on twice is going on once with both steps. -/
theorem andThen_assoc (outcome : Outcome State Report Failure)
    (second third : State → Outcome State Report Failure) :
    (outcome.andThen second).andThen third =
      outcome.andThen fun state => (second state).andThen third := by
  rcases outcome with ⟨state, reports, failure | ⟨⟨⟩⟩⟩
  · simp [andThen]
  · cases hsecond : (second state).result <;> simp [andThen, hsecond]

/-- Working on after an outcome is working from its state. -/
theorem foldl_andThen (step : Item → State → Outcome State Report Failure) (items : List Item)
    (outcome : Outcome State Report Failure) :
    items.foldl (fun outcome item => outcome.andThen (step item)) outcome =
      outcome.andThen (sequence step items) := by
  induction items generalizing outcome with
  | nil => exact (andThen_done outcome).symm
  | cons item items ih =>
      rw [List.foldl_cons, ih, andThen_assoc]
      congr
      funext state
      rw [sequence, List.foldl_cons, ih, done_andThen]

/-- Without items nothing is done. -/
@[simp]
theorem sequence_nil (step : Item → State → Outcome State Report Failure) (state : State) :
    sequence step [] state = done state :=
  rfl

/-- The first item is worked on first. -/
@[simp]
theorem sequence_cons (step : Item → State → Outcome State Report Failure) (item : Item)
    (items : List Item) (state : State) :
    sequence step (item :: items) state = (step item state).andThen (sequence step items) := by
  rw [sequence, List.foldl_cons, foldl_andThen, done_andThen]

/-- A single item is just worked on. -/
@[simp]
theorem sequence_singleton (step : Item → State → Outcome State Report Failure) (item : Item)
    (state : State) : sequence step [item] state = step item state :=
  done_andThen state (step item)

/-- The items of two lists are worked through one list after the other. -/
theorem sequence_append (step : Item → State → Outcome State Report Failure)
    (first second : List Item) (state : State) :
    sequence step (first ++ second) state =
      (sequence step first state).andThen (sequence step second) := by
  rw [sequence, List.foldl_append, foldl_andThen]
  rfl

end Outcome

end ChannelAsm
