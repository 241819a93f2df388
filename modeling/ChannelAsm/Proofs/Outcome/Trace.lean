import ChannelAsm.Proofs.Outcome

/-!
# Traces

A trace keeps what `Outcome.sequence` forgets on its way: each item that is worked on, the failing
one included, and how that ended. `after_trace` and `reports_trace` say that nothing but the result
is lost or added by keeping it. `Follows` says that every moment goes on from the state that the one
before it has left; it holds of every trace by `follows_trace`, and of traces one behind the other.
-/

namespace ChannelAsm.Outcome

variable {State Report Failure Item : Type}

/-- An item that is worked on, and how that ends. -/
structure Moment (Item State Report Failure : Type) where
  item : Item
  outcome : Outcome State Report Failure

namespace Moment

/-- The state after moments: the one that the last of them leaves. -/
def after (state : State) (moments : List (Moment Item State Report Failure)) : State :=
  moments.foldl (fun _ moment => moment.outcome.state) state

/-- What moments report, in order. -/
def reports (moments : List (Moment Item State Report Failure)) : List Report :=
  moments.flatMap fun moment => moment.outcome.reports.toList

/-- The state after moments does not depend on where they are cut. -/
theorem after_append (state : State) (first second : List (Moment Item State Report Failure)) :
    after state (first ++ second) = after (after state first) second :=
  List.foldl_append

/-- The state after moments is the one that the last of them leaves. -/
@[simp]
theorem after_concat (state : State) (moments : List (Moment Item State Report Failure))
    (moment : Moment Item State Report Failure) :
    after state (moments ++ [moment]) = moment.outcome.state :=
  after_append state moments [moment]

/-- The reports of moments are those of both parts. -/
theorem reports_append (first second : List (Moment Item State Report Failure)) :
    reports (first ++ second) = reports first ++ reports second :=
  List.flatMap_append

/-- Each moment starts from the state that the one before it has left. -/
def Follows (step : Item → State → Outcome State Report Failure) :
    State → List (Moment Item State Report Failure) → Prop
  | _, [] => True
  | state, moment :: rest =>
      moment.outcome = step moment.item state ∧ Follows step moment.outcome.state rest

variable {step : Item → State → Outcome State Report Failure}

/-- Moments follow each other exactly when both parts do, the second from where the first ends. -/
theorem follows_append {state : State} {first second : List (Moment Item State Report Failure)} :
    Follows step state (first ++ second) ↔
      Follows step state first ∧ Follows step (after state first) second := by
  induction first generalizing state with
  | nil => simp [Follows, after]
  | cons moment rest ih =>
      rw [List.cons_append, Follows, Follows, ih, and_assoc]
      rfl

/-- Moments that follow each other do so up to any point. -/
theorem Follows.take {state : State} {moments : List (Moment Item State Report Failure)}
    (h : Follows step state moments) (point : Nat) : Follows step state (moments.take point) := by
  rw [← List.take_append_drop point moments] at h
  exact (follows_append.mp h).1

/-- The moment at a point starts from the state that those before it leave. -/
theorem Follows.outcome_eq {state : State} {moments : List (Moment Item State Report Failure)}
    (h : Follows step state moments) {point : Nat} {moment : Moment Item State Report Failure}
    (hmoment : moments[point]? = some moment) :
    moment.outcome = step moment.item (after state (moments.take point)) := by
  obtain ⟨hpoint, rfl⟩ := List.getElem?_eq_some_iff.mp hmoment
  rw [← List.take_append_drop point moments, List.drop_eq_getElem_cons hpoint] at h
  exact (follows_append.mp h).2.1

/-- One more moment follows when it starts from the state that the last one has left. -/
theorem follows_concat {state : State} {moments : List (Moment Item State Report Failure)}
    {moment : Moment Item State Report Failure} :
    Follows step state (moments ++ [moment]) ↔
      Follows step state moments ∧ moment.outcome = step moment.item (after state moments) := by
  rw [follows_append, Follows, Follows, and_true]

end Moment

/-- The moments of working through items in order, up to the first that fails. -/
def trace (step : Item → State → Outcome State Report Failure) :
    List Item → State → List (Moment Item State Report Failure)
  | [], _ => []
  | item :: items, state =>
      ⟨item, step item state⟩ ::
        match (step item state).result with
        | .error _ => []
        | .ok () => trace step items (step item state).state

variable (step : Item → State → Outcome State Report Failure) (items : List Item) (state : State)

/-- The moments of a trace follow each other. -/
theorem follows_trace : Moment.Follows step state (trace step items state) := by
  induction items generalizing state with
  | nil => trivial
  | cons item items ih =>
      refine ⟨rfl, ?_⟩
      cases (step item state).result with
      | error failure => trivial
      | ok => exact ih (step item state).state

/-- A trace ends in the state that working through the items leaves. -/
theorem after_trace : Moment.after state (trace step items state) =
    (sequence step items state).state := by
  induction items generalizing state with
  | nil => rfl
  | cons item items ih =>
      rw [trace, sequence_cons]
      rcases hstep : step item state with ⟨reached, first, failure | ⟨⟨⟩⟩⟩
      · rfl
      · exact ih reached

/-- A trace reports what working through the items does. -/
theorem reports_trace : Moment.reports (trace step items state) =
    (sequence step items state).reports.toList := by
  induction items generalizing state with
  | nil => rfl
  | cons item items ih =>
      rw [trace, sequence_cons]
      rcases hstep : step item state with ⟨reached, first, failure | ⟨⟨⟩⟩⟩
      · exact List.append_nil _
      · rw [ok_andThen, Array.toList_append, ← ih reached]
        rfl

variable {step items state}

/-- Every moment of a trace is one of the items, worked on in some state. -/
theorem exists_of_mem_trace {moment : Moment Item State Report Failure}
    (h : moment ∈ trace step items state) :
    moment.item ∈ items ∧ ∃ reached, moment.outcome = step moment.item reached := by
  induction items generalizing state with
  | nil => cases h
  | cons item items ih =>
      rcases List.mem_cons.mp h with rfl | h
      · exact ⟨List.mem_cons_self, state, rfl⟩
      · cases hresult : (step item state).result with
        | error failure =>
            rw [hresult] at h
            cases h
        | ok =>
            rw [hresult] at h
            obtain ⟨hitem, houtcome⟩ := ih h
            exact ⟨List.mem_cons_of_mem item hitem, houtcome⟩

variable {others : List Item} {item : Item} {left final : State}
  {reported : Array Report} {failure : Failure} {index : Nat}

/-- Behind items that all succeed a trace goes on from where they end. -/
theorem Chain.trace_append (h : Chain step items state reported final) (others : List Item) :
    trace step (items ++ others) state = trace step items state ++ trace step others final := by
  induction h with
  | nil => rfl
  | cons hstep _ ih =>
      rw [List.cons_append, trace, trace, hstep]
      exact congrArg (List.cons _) ih

/-- Items that all succeed have a moment each, and every moment is a success. -/
theorem Chain.trace_eq (h : Chain step items state reported final) :
    (trace step items state).map (·.item) = items ∧
      ∀ moment ∈ trace step items state, moment.outcome.result = .ok () := by
  induction h with
  | nil => exact ⟨rfl, by simp [trace]⟩
  | cons hstep _ ih =>
      obtain ⟨hitems, hresults⟩ := ih
      rw [trace, hstep]
      exact ⟨congrArg (List.cons _) hitems, List.forall_mem_cons.mpr ⟨rfl, hresults⟩⟩

/-- Items that break have a moment each up to the one that fails, which is the last. -/
theorem Break.trace_eq (h : Break step items state index item reported left failure) :
    ∃ earlier last, trace step items state = earlier ++ [⟨item, left, last, .error failure⟩] ∧
      (trace step items state).map (·.item) = items.take (index + 1) ∧
      ∀ moment ∈ earlier, moment.outcome.result = .ok () := by
  obtain ⟨before, reached, last, hbefore, hitem, hlast, -⟩ := h
  obtain ⟨hitems, hresults⟩ := hbefore.trace_eq
  obtain ⟨hlt, hget⟩ := List.getElem?_eq_some_iff.mp hitem
  have htrace : trace step items state =
      trace step (items.take index) state ++ [⟨item, left, last, .error failure⟩] := by
    conv_lhs => rw [← List.take_append_drop index items, List.drop_eq_getElem_cons hlt, hget]
    rw [hbefore.trace_append, trace, hlast]
  refine ⟨_, last, htrace, ?_, hresults⟩
  rw [htrace, List.map_append, hitems, List.take_add_one, hitem]
  rfl

end ChannelAsm.Outcome
