import ChannelAsm.Proofs.Outcome

/-!
# What activities keep

`Ensures` bounds how an outcome ends: a property of the state that is left, and the failures that
there can be. `Agree` compares two outcomes: the same reports, the same result and related states.
By `ensures_sequence` and `agree_sequence` a list of items keeps what each of its items keeps, also
when it breaks off at an item that fails.
-/

namespace ChannelAsm.Outcome

variable {State Report Failure Reason Item : Type}

/-! ## One activity -/

/-- The state that is left satisfies a property, and the failure, if there is one, is allowed. -/
structure Ensures (holds : State → Prop) (allowed : Failure → Prop)
    (outcome : Outcome State Report Failure) : Prop where
  state : holds outcome.state
  result : FailsOnly allowed outcome.result

variable {holds : State → Prop} {allowed : Failure → Prop}

/-- A success ensures what its state satisfies. -/
theorem ensures_ok {state : State} (h : holds state) (reports : Array Report) :
    Ensures holds allowed ⟨state, reports, .ok ()⟩ :=
  ⟨h, failsOnly_ok ()⟩

/-- A failure that is allowed ensures what its state satisfies. -/
theorem ensures_error {state : State} {failure : Failure} (h : holds state)
    (hfailure : allowed failure) (reports : Array Report) :
    Ensures holds allowed ⟨state, reports, .error failure⟩ :=
  ⟨h, failsOnly_error hfailure⟩

/-- A step taken from a computation ensures what holds of its result, and of the state before it
when it has none. -/
theorem ensures_ofExcept {computation : Except Failure State} {state : State}
    (hok : ∀ next, computation = .ok next → holds next)
    (herror : ∀ failure, computation = .error failure → holds state ∧ allowed failure) :
    Ensures holds allowed (ofExcept state computation : Outcome State Report Failure) := by
  cases computation with
  | ok next => exact ensures_ok (hok next rfl) #[]
  | error failure =>
      obtain ⟨hstate, hfailure⟩ := herror failure rfl
      exact ensures_error hstate hfailure #[]

/-- Going on ensures what the next part ensures from every state that the first can leave. -/
theorem Ensures.andThen {outcome : Outcome State Report Failure}
    {next : State → Outcome State Report Failure} (h : Ensures holds allowed outcome)
    (hnext : ∀ state, holds state → Ensures holds allowed (next state)) :
    Ensures holds allowed (outcome.andThen next) := by
  rcases outcome with ⟨reached, first, failure | ⟨⟨⟩⟩⟩
  · exact h
  · have hreached := hnext reached h.state
    exact ⟨hreached.state, hreached.result⟩

/-- Putting failures differently keeps the state. -/
theorem Ensures.mapFailure {outcome : Outcome State Report Failure} {known : Reason → Prop}
    {f : Failure → Reason} (h : Ensures holds allowed outcome)
    (hknown : ∀ failure, allowed failure → known (f failure)) :
    Ensures holds known (outcome.mapFailure f) := by
  rcases outcome with ⟨reached, first, failure | ⟨⟨⟩⟩⟩
  · exact ensures_error h.state (hknown failure (h.result failure rfl)) first
  · exact ensures_ok h.state first

/-- A list ensures what each of its items ensures from every state that satisfies it already. -/
theorem ensures_sequence {step : Item → State → Outcome State Report Failure} {items : List Item}
    (h : ∀ item ∈ items, ∀ state, holds state → Ensures holds allowed (step item state))
    {state : State} (hstate : holds state) :
    Ensures holds allowed (sequence step items state) := by
  induction items generalizing state with
  | nil => exact ensures_ok hstate #[]
  | cons item items ih =>
      rw [sequence_cons]
      refine (h item List.mem_cons_self state hstate).andThen fun reached hreached => ?_
      exact ih (fun other hother => h other (List.mem_cons_of_mem item hother)) hreached

/-! ## Two activities -/

/-- Two outcomes report the same, end with the same result and leave related states. -/
structure Agree {Other : Type} (related : State → Other → Prop)
    (left : Outcome State Report Failure) (right : Outcome Other Report Failure) : Prop where
  state : related left.state right.state
  reports : left.reports = right.reports
  result : left.result = right.result

variable {Other Twin : Type} {related : State → Other → Prop}

/-- Successes with the same reports agree when their states are related. -/
theorem agree_ok {state : State} {other : Other} (h : related state other)
    (reports : Array Report) :
    Agree related (⟨state, reports, .ok ()⟩ : Outcome State Report Failure)
      ⟨other, reports, .ok ()⟩ :=
  ⟨h, rfl, rfl⟩

/-- Two steps that are taken from computations agree when these fail alike and succeed with related
states. -/
theorem agree_ofExcept {left : Except Failure State} {right : Except Failure Other}
    {state : State} {other : Other} (hstate : related state other)
    (hok : ∀ first second, left = .ok first → right = .ok second → related first second)
    (herror : ∀ failure, left = .error failure ↔ right = .error failure) :
    Agree related (ofExcept state left : Outcome State Report Failure) (ofExcept other right) := by
  cases left with
  | error failure =>
      rw [(herror failure).mp rfl]
      exact ⟨hstate, rfl, rfl⟩
  | ok first =>
      cases right with
      | error failure => cases (herror failure).mpr rfl
      | ok second => exact agree_ok (hok first second rfl rfl) #[]

/-- Outcomes that agree still do when both go on in ways that agree from related states. -/
theorem Agree.andThen {left : Outcome State Report Failure} {right : Outcome Other Report Failure}
    {leftNext : State → Outcome State Report Failure}
    {rightNext : Other → Outcome Other Report Failure} (h : Agree related left right)
    (hnext : ∀ first second, related first second →
      Agree related (leftNext first) (rightNext second)) :
    Agree related (left.andThen leftNext) (right.andThen rightNext) := by
  rcases left with ⟨first, firstReports, result⟩
  rcases right with ⟨second, secondReports, other⟩
  obtain ⟨hstate, rfl, rfl⟩ := h
  rcases result with failure | ⟨⟨⟩⟩
  · exact ⟨hstate, rfl, rfl⟩
  · have hboth := hnext first second hstate
    exact ⟨hboth.state, congrArg (firstReports ++ ·) hboth.reports, hboth.result⟩

/-- Outcomes that agree still do when the failures of both are put differently. -/
theorem Agree.mapFailure {left : Outcome State Report Failure}
    {right : Outcome Other Report Failure} (h : Agree related left right)
    (f : Failure → Reason) : Agree related (left.mapFailure f) (right.mapFailure f) :=
  ⟨h.state, h.reports, congrArg (Except.mapError f) h.result⟩

/-- Two lists agree when their items do one by one, each from related states. -/
theorem agree_sequence {step : Item → State → Outcome State Report Failure}
    {twin : Twin → Other → Outcome Other Report Failure} {alike : Item → Twin → Prop}
    (h : ∀ item other, alike item other → ∀ first second, related first second →
      Agree related (step item first) (twin other second))
    {items : List Item} {others : List Twin} (hitems : List.Forall₂ alike items others)
    {first : State} {second : Other} (hstate : related first second) :
    Agree related (sequence step items first) (sequence twin others second) := by
  induction hitems generalizing first second with
  | nil => exact ⟨hstate, rfl, rfl⟩
  | cons hitem _ ih =>
      rw [sequence_cons, sequence_cons]
      exact (h _ _ hitem first second hstate).andThen fun _ _ hreached => ih hreached

end ChannelAsm.Outcome
