import Mathlib.Data.List.Induction

/-!
# Dialogues

A server answers requests one after the other and carries a state from each to the next. `log` is
what was asked and answered, and `after` the state behind the last request; the server that `settle`
makes of a computation keeps its state when the computation fails. `invariant` carries a law of log
and state from each request to the next. When the requests that concern one share of the state are
served as a server of that share alone would serve them, `project_log` says that the log of the
share is the log of its own server.
-/

namespace ChannelAsm.Dialogue

variable {Request Part Reply State Share Failure : Type}

/-- The server that does what a request asks, and answers a request that fails with the failure and
keeps its state. -/
def settle (perform : Request → State → Except Failure (Reply × State)) (request : Request)
    (state : State) : Except Failure Reply × State :=
  match perform request state with
  | .ok (reply, next) => (.ok reply, next)
  | .error failure => (.error failure, state)

/-- The requests with their replies, when they are served one after the other. -/
def log (serve : Request → State → Reply × State) : List Request → State → List (Request × Reply)
  | [], _ => []
  | request :: requests, state =>
      (request, (serve request state).1) :: log serve requests (serve request state).2

/-- The state behind the last request. -/
def after (serve : Request → State → Reply × State) : List Request → State → State
  | [], state => state
  | request :: requests, state => after serve requests (serve request state).2

/-- The entries of the requests that are picked, each as what it is picked as. -/
def project (pick : Request → Option Part) (entries : List (Request × Reply)) :
    List (Part × Reply) :=
  entries.filterMap fun entry => (pick entry.1).map (·, entry.2)

section Settling

variable {perform : Request → State → Except Failure (Reply × State)} {request : Request}
  {state next : State} {reply : Reply} {failure : Failure}

/-- What succeeds is answered with its reply, and gives the next state. -/
theorem settle_of_ok (h : perform request state = .ok (reply, next)) :
    settle perform request state = (.ok reply, next) := by
  rw [settle, h]

/-- What fails is answered with the failure, and leaves the state. -/
theorem settle_of_error (h : perform request state = .error failure) :
    settle perform request state = (.error failure, state) := by
  rw [settle, h]

/-- A server that answers with a failure has kept its state. -/
theorem snd_settle_of_fst_eq_error (h : (settle perform request state).1 = .error failure) :
    (settle perform request state).2 = state := by
  cases hperform : perform request state with
  | error failure => rw [settle_of_error hperform]
  | ok result =>
      rw [settle_of_ok hperform] at h
      cases h

end Settling

variable {serve : Request → State → Reply × State} {requests : List Request} {state : State}

/-- A log lists the requests in their order. -/
theorem map_fst_log (requests : List Request) (state : State) :
    (log serve requests state).map Prod.fst = requests := by
  induction requests generalizing state with
  | nil => rfl
  | cons request requests ih => rw [log, List.map_cons, ih]

/-- The log of two rows of requests is that of the one and then that of the other. -/
theorem log_append (front back : List Request) (state : State) :
    log serve (front ++ back) state =
      log serve front state ++ log serve back (after serve front state) := by
  induction front generalizing state with
  | nil => rfl
  | cons request front ih => exact congrArg _ (ih _)

/-- Of two rows of requests, the other starts in the state behind the one. -/
theorem after_append (front back : List Request) (state : State) :
    after serve (front ++ back) state = after serve back (after serve front state) := by
  induction front generalizing state with
  | nil => rfl
  | cons request front ih => exact ih _

/-- Every reply of a log is given in the state behind the requests before it. -/
theorem reply_of_log_eq {before behind : List (Request × Reply)} {request : Request}
    {reply : Reply} (h : log serve requests state = before ++ (request, reply) :: behind) :
    ∃ front, log serve front state = before ∧
      reply = (serve request (after serve front state)).1 := by
  have hrequests : requests = before.map Prod.fst ++ request :: behind.map Prod.fst := by
    have hlog : (log serve requests state).map Prod.fst = requests := map_fst_log requests state
    rw [← hlog, h, List.map_append, List.map_cons]
  have hlength : (log serve (before.map Prod.fst) state).length = before.length := by
    rw [← List.length_map Prod.fst, map_fst_log, List.length_map]
  rw [hrequests, log_append] at h
  obtain ⟨hbefore, hrest⟩ := List.append_inj h hlength
  obtain ⟨hentry, -⟩ := List.cons.inj hrest
  exact ⟨_, hbefore, (Prod.mk.inj hentry).2.symm⟩

/-- A law of log and state that every request keeps holds behind every row of requests. -/
theorem invariant {Holds : List (Request × Reply) → State → Prop} (hstart : Holds [] state)
    (hstep : ∀ entries current request, Holds entries current →
      Holds (entries ++ [(request, (serve request current).1)]) (serve request current).2)
    (requests : List Request) : Holds (log serve requests state) (after serve requests state) := by
  -- The law is about all that was asked, so a request is added at the end.
  induction requests using List.reverseRecOn with
  | nil => exact hstart
  | append_singleton front request ih =>
      rw [log_append, after_append]
      exact hstep _ _ request ih

/-- An entry whose request is not picked is left out. -/
theorem project_cons_none {pick : Request → Option Part} {request : Request} {reply : Reply}
    {entries : List (Request × Reply)} (h : pick request = none) :
    project pick ((request, reply) :: entries) = project pick entries :=
  List.filterMap_cons_none (by rw [h, Option.map_none])

/-- An entry whose request is picked stays, as what the request is picked as. -/
theorem project_cons_some {pick : Request → Option Part} {request : Request} {part : Part}
    {reply : Reply} {entries : List (Request × Reply)} (h : pick request = some part) :
    project pick ((request, reply) :: entries) = (part, reply) :: project pick entries :=
  List.filterMap_cons_some (by rw [h, Option.map_some])

/-- The log of a share of the state is the log of a server of the share, and the state is related
to the share still, when the picked requests are answered and served as the parts that they are
picked as, and the others leave the share alone. -/
theorem project_log {pick : Request → Option Part} {serveShare : Part → Share → Reply × Share}
    {Relates : State → Share → Prop} {share : Share}
    (hpicked : ∀ request part current share, pick request = some part → Relates current share →
      (serve request current).1 = (serveShare part share).1 ∧
        Relates (serve request current).2 (serveShare part share).2)
    (hothers : ∀ request current share, pick request = none → Relates current share →
      Relates (serve request current).2 share)
    (hstart : Relates state share) (requests : List Request) :
    project pick (log serve requests state) = log serveShare (requests.filterMap pick) share ∧
      Relates (after serve requests state) (after serveShare (requests.filterMap pick) share) := by
  induction requests generalizing state share with
  | nil => exact ⟨rfl, hstart⟩
  | cons request requests ih =>
      cases hpick : pick request with
      | none =>
          obtain ⟨hlog, hafter⟩ := ih (hothers request state share hpick hstart)
          rw [List.filterMap_cons_none hpick]
          refine ⟨?_, hafter⟩
          rw [log, project_cons_none hpick, hlog]
      | some part =>
          obtain ⟨hreply, hnext⟩ := hpicked request part state share hpick hstart
          obtain ⟨hlog, hafter⟩ := ih hnext
          rw [List.filterMap_cons_some hpick]
          refine ⟨?_, hafter⟩
          rw [log, log, project_cons_some hpick, hlog, hreply]

end ChannelAsm.Dialogue
