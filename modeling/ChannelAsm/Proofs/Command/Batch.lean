import ChannelAsm.Proofs.Command.Loading
import ChannelAsm.Proofs.Command.Transcript
import ChannelAsm.Proofs.Outcome

/-!
# What a batch leaves behind

A command without a session loads and builds its source, runs the initial event, the chosen ones and
then the one that ticks, and stops at the first run that fails. `Command.Batch` says what it leaves
behind by the runs alone, and what is written for it word by word. `Command.execute_batch` says that
the command leaves just that, however many runs a tick is given from some number on, unless the tick
never fails.
-/

namespace ChannelAsm

/-! ## Steps -/

namespace Step

/-- What is written before in two parts is written before as a whole. -/
theorem behind_behind (step : Step) (first second : List Writing) :
    (step.behind second).behind first = step.behind (first ++ second) := by
  rw [behind, behind, behind, List.append_assoc]

/-- What is written before a step is written before what it leads to. -/
theorem behind_andThen (step : Step) (first : List Writing) (next : Stage → Step) :
    (step.behind first).andThen next = (step.andThen next).behind first :=
  (behind_behind ..).symm

/-- Doing nothing about what a step leads to leaves the step. -/
theorem andThen_eq_self {step : Step} {next : Stage → Step}
    (h : next step.next = ⟨[], step.next⟩) : step.andThen next = step := by
  rw [andThen, h, behind, List.append_nil]

end Step

namespace Program

/-- The events of a batch in order, when the one that ticks is run the given number of times. -/
def schedule (events : List String) (tick : Option String) (count : Nat) : List String :=
  "init" :: events ++ tick.toList.flatMap (List.replicate count)

/-- Nothing is added to the chosen events without one that ticks. -/
theorem schedule_none (events : List String) (count : Nat) :
    schedule events none count = "init" :: events :=
  List.append_nil _

/-- The event that ticks comes behind all others. -/
theorem schedule_some (events : List String) (name : String) (count : Nat) :
    schedule events (some name) count = "init" :: events ++ List.replicate count name := by
  simp [schedule]

/-- More ticks come behind all others. -/
theorem schedule_add (events : List String) (tick : Option String) (count more : Nat) :
    schedule events tick (count + more) =
      schedule events tick count ++ tick.toList.flatMap (List.replicate more) := by
  cases tick with
  | none => simp [schedule]
  | some name => simp [schedule]

end Program

namespace Command

section Hosting

variable (given : Arguments) (terminal : Terminal)

/-- What a success and its continuation come to is written in two parts. -/
theorem settle_andThen {outcome : Outcome Bank Report Diagnostic} (h : outcome.result = .ok ())
    (next : Bank → Outcome Bank Report Diagnostic) (goOn : Bank → Stage) :
    settle given terminal (outcome.andThen next) goOn =
      (settle given terminal (next outcome.state) goOn).behind
        (Report.transcript terminal given.level outcome.reports) := by
  obtain ⟨state, reports, result⟩ := outcome
  obtain rfl : result = .ok () := h
  rw [Outcome.ok_andThen]
  unfold settle
  dsimp only
  rw [Report.transcript_append]
  cases (next state).result with
  | ok => rfl
  | error diagnostic => exact (Step.behind_behind ..).symm

/-- There is nothing to do at a stage that lets no event tick. -/
theorem ticked_of_ne {stage : Stage}
    (h : ∀ program name bank, stage ≠ .ticking program name bank) (times : Nat) :
    ticked given terminal times stage = ⟨[], stage⟩ := by
  fun_cases ticked given terminal times stage with
  | case1 times program name bank => exact absurd rfl (h program name bank)
  | case2 => rfl

/-- There is nothing to do once a command is over. -/
theorem ticked_over (times : Nat) (failed : Bool) :
    ticked given terminal times (.over failed) = ⟨[], .over failed⟩ :=
  ticked_of_ne given terminal (fun _ _ _ => Stage.noConfusion) times

/-- Ticking behind an outcome is repeating the event behind it. -/
theorem settle_andThen_ticked (program : Program) (name : String) (times count : Nat)
    (outcome : Outcome Bank Report Diagnostic) :
    (settle given terminal outcome (.ticking program name)).andThen
        (ticked given terminal times) =
      settle given terminal (Outcome.iterate (program.run name) times count outcome).2
        (.ticking program name) := by
  induction times generalizing count outcome with
  | zero => exact Step.andThen_eq_self rfl
  | succ times ih =>
      rcases outcome with ⟨state, reports, diagnostic | ⟨⟨⟩⟩⟩
      · exact Step.andThen_eq_self rfl
      · -- The first tick becomes part of the outcome behind which the others come.
        have hrest := ih (count + 1) (Outcome.andThen ⟨state, reports, .ok ()⟩ (program.run name))
        rw [settle_andThen given terminal rfl, Step.behind_andThen] at hrest
        exact hrest

/-- A host does not go on to tick when no event is to. -/
theorem host_next_ne (htick : given.tick = none) (program other : Program) (name : String)
    (bank : Bank) : (host given terminal program).next ≠ .ticking other name bank := by
  have hgoOn (left : Bank) : goOn given program left ≠ .ticking other name bank := by
    rw [goOn, htick]
    dsimp only
    split <;> exact Stage.noConfusion
  rw [host]
  rcases program.start given.events with ⟨left, reports, diagnostic | ⟨⟨⟩⟩⟩
  · exact Stage.noConfusion
  · exact hgoOn left

/-- A host works through its schedule. -/
theorem host_andThen_ticked (program : Program) (ticks : Nat) :
    (host given terminal program).andThen (ticked given terminal ticks) =
      settle given terminal (Outcome.sequence program.run
        (Program.schedule given.events given.tick ticks) .initial) (goOn given program) := by
  cases htick : given.tick with
  | none =>
      rw [Program.schedule_none]
      exact Step.andThen_eq_self
        (ticked_of_ne given terminal (host_next_ne given terminal htick program) ticks)
  | some name =>
      have hgoOn : goOn given program = .ticking program name := by
        funext bank
        rw [goOn, htick]
      rw [host, hgoOn, settle_andThen_ticked given terminal program name ticks 0,
        Outcome.iterate_eq, Program.schedule_some, Outcome.sequence_append]
      rfl

end Hosting

/-! ## Batches -/

variable {given : Arguments} {surroundings : Surroundings} {records : Array Record}
  {program : Program}

/-- There is no source, or it does not build, or one of the runs of the schedule fails. -/
def Fails (given : Arguments) (surroundings : Surroundings) : Prop :=
  (∃ loading problem, surroundings.Loads given.source loading (.error problem)) ∨
  (∃ loading source diagnostic, surroundings.Loads given.source loading (.ok source) ∧
    (Program.build Memory.defaultCapacity source).result = .error diagnostic) ∨
  ∃ records program count index name reports left diagnostic,
    Builds given surroundings records program ∧
    Outcome.Break program.run (Program.schedule given.events given.tick count) .initial index name
      reports left diagnostic

/-- What a command without a session leaves behind. It fails when there is no source, when that does
not build, or when one of its runs fails; the runs behind that one have no part in it. What is
written recounts the records and the reports up to there, and ends in the failure. -/
inductive Batch (given : Arguments) (surroundings : Surroundings) : Finished → Prop where
  | unread {loading problem written} :
      surroundings.Loads given.source loading (.error problem) →
      Report.Recounts surroundings.terminal given.level (loading.map .record) written →
      Batch given surroundings
        ⟨written ++ [.err (surroundings.terminal.bold problem ++ "\n")], true, []⟩
  | unbuilt {loading source built diagnostic written} :
      surroundings.Loads given.source loading (.ok source) →
      Program.build Memory.defaultCapacity source = ⟨built, .error diagnostic⟩ →
      Report.Recounts surroundings.terminal given.level ((loading ++ built).map .record) written →
      Batch given surroundings
        ⟨written ++ [.err (surroundings.terminal.failureLine diagnostic)], true, []⟩
  | stopped {records program count index name reports left diagnostic written} :
      Builds given surroundings records program →
      Outcome.Break program.run (Program.schedule given.events given.tick count) .initial index
        name reports left diagnostic →
      Report.Recounts surroundings.terminal given.level (records.map .record ++ reports) written →
      Batch given surroundings
        ⟨written ++ [.err (surroundings.terminal.failureLine diagnostic)], true, []⟩
  | finished {records program reports final written} : Builds given surroundings records program →
      given.tick = none →
      Outcome.Chain program.run ("init" :: given.events) .initial reports final →
      Report.Recounts surroundings.terminal given.level (records.map .record ++ reports) written →
      Batch given surroundings ⟨written, false, []⟩

/-- A command without a source says why there is none. -/
theorem execute_of_unread {loading : Array Record} {problem : String} {written : List Writing}
    (h : surroundings.Loads given.source loading (.error problem))
    (hwritten : Report.Recounts surroundings.terminal given.level (loading.map .record) written)
    (inputs : List String) (ticks : Nat) :
    execute given surroundings inputs ticks =
      ⟨written ++ [.err (surroundings.terminal.bold problem ++ "\n")], true, []⟩ := by
  have hload := Surroundings.loads_iff.mp h
  obtain rfl := Report.recounts_iff.mp hwritten
  rw [execute, begin, hload]
  dsimp only
  rw [Step.andThen_eq_self (ticked_over given surroundings.terminal ticks true)]
  rfl

/-- A command whose source does not build says why. -/
theorem execute_of_unbuilt {loading built : Array Record} {source : String}
    {diagnostic : Diagnostic} {written : List Writing}
    (h : surroundings.Loads given.source loading (.ok source))
    (hbuild : Program.build Memory.defaultCapacity source = ⟨built, .error diagnostic⟩)
    (hwritten : Report.Recounts surroundings.terminal given.level
      ((loading ++ built).map .record) written) (inputs : List String) (ticks : Nat) :
    execute given surroundings inputs ticks =
      ⟨written ++ [.err (surroundings.terminal.failureLine diagnostic)], true, []⟩ := by
  have hload := Surroundings.loads_iff.mp h
  obtain rfl := Report.recounts_iff.mp hwritten
  rw [Terminal.failureLine_eq, execute, begin, hload]
  dsimp only
  rw [hbuild]
  dsimp only
  rw [Step.andThen_eq_self (ticked_over given surroundings.terminal ticks true)]
  rfl

/-- A command whose source builds works through its schedule. -/
theorem execute_of_builds (h : Builds given surroundings records program) (inputs : List String)
    (ticks : Nat) :
    execute given surroundings inputs ticks =
      finish given surroundings.terminal inputs ((settle given surroundings.terminal
        (Outcome.sequence program.run (Program.schedule given.events given.tick ticks) .initial)
        (goOn given program)).behind
          (Report.transcript surroundings.terminal given.level (records.map .record))) := by
  obtain ⟨loading, source, built, hloads, hbuild, rfl⟩ := h
  have hload := Surroundings.loads_iff.mp hloads
  rw [execute, begin, hload]
  dsimp only
  rw [hbuild, Step.behind_andThen, host_andThen_ticked]

/-- The command breaks off where its schedule does. -/
theorem execute_of_break (h : Builds given surroundings records program) {ticks index : Nat}
    {name : String} {reports : Array Report} {left : Bank} {diagnostic : Diagnostic}
    {written : List Writing}
    (hbreak : Outcome.Break program.run (Program.schedule given.events given.tick ticks) .initial
      index name reports left diagnostic)
    (hwritten : Report.Recounts surroundings.terminal given.level
      (records.map .record ++ reports) written) (inputs : List String) :
    execute given surroundings inputs ticks =
      ⟨written ++ [.err (surroundings.terminal.failureLine diagnostic)], true, []⟩ := by
  obtain rfl := Report.recounts_iff.mp hwritten
  rw [execute_of_builds h, hbreak.sequence_eq, Terminal.failureLine_eq, Report.transcript_append,
    List.append_assoc]
  rfl

/-- A command whose schedule does not break goes on to a session if there is to be one. -/
theorem execute_of_chain (h : Builds given surroundings records program) {ticks : Nat}
    {reports : Array Report} {final : Bank} {written : List Writing}
    (hchain : Outcome.Chain program.run (Program.schedule given.events given.tick ticks) .initial
      reports final) (htick : given.tick = none)
    (hwritten : Report.Recounts surroundings.terminal given.level
      (records.map .record ++ reports) written) (inputs : List String) :
    execute given surroundings inputs ticks =
      ⟨written, false, if given.interactive then
        Session.replies program surroundings.terminal given.level final inputs else []⟩ := by
  obtain rfl := Report.recounts_iff.mp hwritten
  rw [execute_of_builds h, hchain.sequence_eq, Report.transcript_append]
  have hgoOn : goOn given program final =
      if given.interactive then .asking program final else .over false := by
    rw [goOn, htick]
  unfold settle
  dsimp only
  rw [hgoOn]
  split <;> rfl

/-- A command without a session leaves behind what its runs say, from some number of ticks on. -/
theorem Batch.execute_eq {finished : Finished} (h : Batch given surroundings finished)
    (hbatch : given.interactive = false) :
    ∃ enough, ∀ ticks, enough ≤ ticks → ∀ inputs,
      execute given surroundings inputs ticks = finished := by
  cases h with
  | unread hloads hwritten =>
      exact ⟨0, fun ticks _ inputs => execute_of_unread hloads hwritten inputs ticks⟩
  | unbuilt hloads hbuild hwritten =>
      exact ⟨0, fun ticks _ inputs => execute_of_unbuilt hloads hbuild hwritten inputs ticks⟩
  | @stopped records program count index name reports left diagnostic written hbuilds hbreak
      hwritten =>
      refine ⟨count, fun ticks hticks inputs => ?_⟩
      -- The ticks beyond those that lead to the break are never started.
      have hlonger := hbreak.append (given.tick.toList.flatMap (List.replicate (ticks - count)))
      rw [← Program.schedule_add, Nat.add_sub_cancel' hticks] at hlonger
      exact execute_of_break hbuilds hlonger hwritten inputs
  | @finished records program reports final written hbuilds htick hchain hwritten =>
      refine ⟨0, fun ticks _ inputs => ?_⟩
      rw [← Program.schedule_none given.events ticks, ← htick] at hchain
      rw [execute_of_chain hbuilds hchain htick hwritten, hbatch]
      rfl

/-- What a command leaves behind counts as failed exactly when there is no source, when that does
not build or when one of its runs fails. -/
theorem Batch.failed_iff {finished : Finished} (h : Batch given surroundings finished) :
    finished.failed = true ↔ Fails given surroundings := by
  cases h with
  | unread hloads hwritten => exact ⟨fun _ => .inl ⟨_, _, hloads⟩, fun _ => rfl⟩
  | unbuilt hloads hbuild hwritten =>
      exact ⟨fun _ => .inr (.inl ⟨_, _, _, hloads, congrArg Linked.result hbuild⟩), fun _ => rfl⟩
  | stopped hbuilds hbreak hwritten =>
      exact ⟨fun _ => .inr (.inr ⟨_, _, _, _, _, _, _, _, hbuilds, hbreak⟩), fun _ => rfl⟩
  | finished hbuilds htick hchain hwritten =>
      refine ⟨fun hfailed => (Bool.false_ne_true hfailed).elim, fun hfails => ?_⟩
      obtain ⟨loading, source, built, hloads, hbuild, -⟩ := id hbuilds
      rcases hfails with ⟨_, _, hunread⟩ | ⟨_, _, _, hloadsToo, hunbuilt⟩ |
        ⟨_, _, _, _, _, _, _, _, hbuildsToo, hbreak⟩
      · cases (hloads.unique hunread).2
      · cases (hloads.unique hloadsToo).2
        rw [hbuild] at hunbuilt
        cases hunbuilt
      · obtain ⟨_, rfl⟩ := hbuilds.unique hbuildsToo
        rw [htick, Program.schedule_none] at hbreak
        exact (hbreak.not_chain hchain).elim

/-- A command without a session, whatever its source, its chosen events and its tick, leaves behind
what `Batch` says from some number of ticks on. There is something that it says, unless the source
builds, an event ticks, and every run of the schedule succeeds however often that event ticks. -/
theorem execute_batch (given : Arguments) (surroundings : Surroundings)
    (hbatch : given.interactive = false) :
    (∀ finished, Batch given surroundings finished →
      (finished.failed = true ↔ Fails given surroundings) ∧
      ∃ enough, ∀ ticks, enough ≤ ticks → ∀ inputs,
        execute given surroundings inputs ticks = finished) ∧
    ((∃ finished, Batch given surroundings finished) ∨
      ∃ records program name, Builds given surroundings records program ∧
        given.tick = some name ∧
        ∀ count, ∃ reports final, Outcome.Chain program.run
          (Program.schedule given.events given.tick count) .initial reports final) := by
  refine ⟨fun finished h => ⟨h.failed_iff, h.execute_eq hbatch⟩, ?_⟩
  rcases builds_cases given surroundings with ⟨_, _, hloads⟩ | ⟨_, _, _, _, hloads, hbuild⟩ |
    ⟨records, program, hbuilds⟩
  · exact .inl ⟨_, .unread hloads (Report.recounts_transcript ..)⟩
  · exact .inl ⟨_, .unbuilt hloads hbuild (Report.recounts_transcript ..)⟩
  · by_cases hends : ∃ count index name reports left diagnostic,
      Outcome.Break program.run (Program.schedule given.events given.tick count) .initial index name
        reports left diagnostic
    · obtain ⟨_, _, _, _, _, _, hbreak⟩ := hends
      exact .inl ⟨_, .stopped hbuilds hbreak (Report.recounts_transcript ..)⟩
    · have hchain (count : Nat) : ∃ reports final, Outcome.Chain program.run
          (Program.schedule given.events given.tick count) .initial reports final :=
        (Outcome.chain_or_break program.run _ .initial).resolve_right fun hbreak =>
          hends ⟨count, hbreak⟩
      cases htick : given.tick with
      | none =>
          obtain ⟨_, _, hfirst⟩ := hchain 0
          rw [htick, Program.schedule_none] at hfirst
          exact .inl ⟨_, .finished hbuilds htick hfirst (Report.recounts_transcript ..)⟩
      | some name => exact .inr ⟨_, _, name, hbuilds, rfl, htick ▸ hchain⟩

/-- A command whose runs have all succeeded has not failed. -/
theorem failed_finish_goOn (given : Arguments) (terminal : Terminal) (inputs : List String)
    (written : List Writing) (program : Program) (bank : Bank) :
    (finish given terminal inputs ⟨written, goOn given program bank⟩).failed = false := by
  rw [finish, goOn]
  cases given.tick <;> cases given.interactive <;> rfl

/-- After any number of ticks a command has failed, and that is final, or its source builds and the
runs up to there have all succeeded. -/
theorem batch_or_chain (given : Arguments) (surroundings : Surroundings) (inputs : List String)
    (ticks : Nat) :
    let left := execute given surroundings inputs ticks
    (left.failed = true ∧ Batch given surroundings left) ∨
      left.failed = false ∧ ∃ records program reports final,
        Builds given surroundings records program ∧ Outcome.Chain program.run
          (Program.schedule given.events given.tick ticks) .initial reports final := by
  dsimp only
  rcases builds_cases given surroundings with ⟨_, _, hloads⟩ | ⟨_, _, _, _, hloads, hbuild⟩ |
    ⟨records, program, hbuilds⟩
  · rw [execute_of_unread hloads (Report.recounts_transcript ..)]
    exact .inl ⟨rfl, .unread hloads (Report.recounts_transcript ..)⟩
  · rw [execute_of_unbuilt hloads hbuild (Report.recounts_transcript ..)]
    exact .inl ⟨rfl, .unbuilt hloads hbuild (Report.recounts_transcript ..)⟩
  · rcases Outcome.chain_or_break program.run (Program.schedule given.events given.tick ticks)
      .initial with ⟨reports, final, hchain⟩ | ⟨index, name, reports, left, diagnostic, hbreak⟩
    · refine .inr ⟨?_, records, program, reports, final, hbuilds, hchain⟩
      rw [execute_of_builds hbuilds, hchain.sequence_eq]
      exact failed_finish_goOn ..
    · rw [execute_of_break hbuilds hbreak (Report.recounts_transcript ..)]
      exact .inl ⟨rfl, .stopped hbuilds hbreak (Report.recounts_transcript ..)⟩

/-- A source that prints at first, and whose ticks leave with a status until the accumulator is
empty. -/
def leavingSource : String :=
  ".section data\n---\nevent_init\nmov eax 3\nmov eco 65\nint 7\n---\nevent_t\nint 0"

/-- A missing event, two exits and a failing tick, with the warnings of the log in between. -/
theorem execute_batch_leaving :
    let given : Arguments := ⟨"a", ["none"], some "t", 0, false, .warn⟩
    let surroundings : Surroundings :=
      ⟨⟨[("a", leavingSource.toUTF8)]⟩, fun _ => .error "", .standard⟩
    let finished : Finished :=
      ⟨[.out "A",
        .out "WARN  [mcasm::mach::runtime] Failed to find event event_none to run\n",
        .err "\x1b[1mNO EVENT event_none\x1b[0m\n",
        .out ("ERROR [mcasm::mach::runtime] System call failed: interrupt 0x00 read exit code 2" ++
          " from register 0x0000, expected 0\n"),
        .err "\x1b[1mEXIT STATUS 2\x1b[0m\n",
        .out ("ERROR [mcasm::mach::runtime] System call failed: interrupt 0x00 read exit code -1" ++
          " from register 0x0000, expected 0\n"),
        .err "\x1b[1mEXIT STATUS -1\x1b[0m\n",
        .err "\x1b[1mSTACK UNDERFLOW IN 9; eax: `int 0`\x1b[0m\n"], true, []⟩
    given.interactive = false ∧ Batch given surroundings finished ∧ Fails given surroundings ∧
      ∃ enough, ∀ ticks, enough ≤ ticks → ∀ inputs,
        execute given surroundings inputs ticks = finished := by
  intro given surroundings finished
  have hloads : surroundings.Loads given.source #[] (.ok leavingSource) :=
    Surroundings.loads_file leavingSource
  have hexecute : execute given surroundings [] 3 = finished := by
    rw [execute, Surroundings.loads_iff.mp hloads]
    decide +kernel
  have hbatch : Batch given surroundings finished := by
    rcases batch_or_chain given surroundings [] 3 with ⟨-, hbatch⟩ | ⟨hfailed, -⟩
    · exact hexecute ▸ hbatch
    · cases hfailed.symm.trans (congrArg Finished.failed hexecute)
  obtain ⟨hfails, henough⟩ := (execute_batch given surroundings rfl).1 finished hbatch
  exact ⟨rfl, hbatch, hfails.mp rfl, henough⟩

end Command

end ChannelAsm
