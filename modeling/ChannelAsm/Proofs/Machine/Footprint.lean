import ChannelAsm.Proofs.Machine.Failure
import ChannelAsm.Proofs.Outcome.Ensures

/-!
# Footprints

A line reads and changes the channels of its footprint and no others. `Bank.Local` says what that
means: other channels stay as they are, and from banks that hold the same on these channels the same
is reported, with the same result, and the same is left on them. `Program.local_step` has it of
lines and `Program.local_run` of runs. Whatever is local in this sense commutes with what is local
to other channels, by `Bank.Local.commutes`; for lines `Program.step_footprint` draws these
conclusions.
-/

namespace ChannelAsm

variable {Failure : Type}

namespace Bank

/-- The banks hold the same on these channels. -/
def AgreeOn (channels : List Channel) (left right : Bank) : Prop :=
  ∀ channel ∈ channels, left.stack channel = right.stack channel

/-- The activity neither reads nor changes any but these channels, whether it fails or not. -/
structure Local (channels : List Channel) (activity : Bank → Outcome Bank Report Failure) :
    Prop where
  stack_eq : ∀ bank, ∀ channel ∉ channels,
    (activity bank).state.stack channel = bank.stack channel
  agree : ∀ left right, AgreeOn channels left right →
    Outcome.Agree (AgreeOn channels) (activity left) (activity right)

/-- One after the other, in either order, the activities leave the same bank, and each reports the
same with the same result. The second goes on from what the first leaves even when that fails. -/
structure Commutes (first second : Bank → Outcome Bank Report Failure) (bank : Bank) : Prop where
  state_eq : (second (first bank).state).state = (first (second bank).state).state
  first_reports : (first (second bank).state).reports = (first bank).reports
  first_result : (first (second bank).state).result = (first bank).result
  second_reports : (second (first bank).state).reports = (second bank).reports
  second_result : (second (first bank).state).result = (second bank).result

variable {channels wider others : List Channel} {left right bank : Bank} {channel : Channel}
  {activity first second : Bank → Outcome Bank Report Failure}

/-! ## Local activities -/

/-- Where two banks hold the same, so do those that a local activity leaves, if they hold the same
on its channels. -/
theorem Local.stack_congr (h : Local channels activity) (hagree : AgreeOn channels left right)
    (hstack : left.stack channel = right.stack channel) :
    (activity left).state.stack channel = (activity right).state.stack channel := by
  by_cases hmem : channel ∈ channels
  · exact (h.agree left right hagree).state channel hmem
  · rw [h.stack_eq left channel hmem, h.stack_eq right channel hmem, hstack]

/-- What is local to some channels is local to more. -/
theorem Local.mono (h : Local channels activity) (hwider : channels ⊆ wider) :
    Local wider activity := by
  refine ⟨fun bank channel hnot => h.stack_eq bank channel fun hmem => hnot (hwider hmem), ?_⟩
  intro left right hagree
  have hfewer : AgreeOn channels left right := fun channel hmem => hagree channel (hwider hmem)
  have hends := h.agree left right hfewer
  exact ⟨fun channel hmem => h.stack_congr hfewer (hagree channel hmem), hends.reports,
    hends.result⟩

/-- Leaving the bank alone is local. -/
theorem local_const (channels : List Channel) (reports : Array Report)
    (result : Except Failure Unit) :
    Local channels fun bank => (⟨bank, reports, result⟩ : Outcome Bank Report Failure) :=
  ⟨fun _ _ _ => rfl, fun _ _ hagree => ⟨hagree, rfl, rfl⟩⟩

/-- Local activities one after the other are local. -/
theorem Local.andThen (hfirst : Local channels first) (hsecond : Local channels second) :
    Local channels fun bank => (first bank).andThen second := by
  constructor
  · intro bank channel hnot
    rcases hends : first bank with ⟨reached, reports, failure | ⟨⟨⟩⟩⟩
    · rw [Outcome.error_andThen, ← hfirst.stack_eq bank channel hnot, hends]
    · rw [Outcome.ok_andThen, hsecond.stack_eq reached channel hnot,
        ← hfirst.stack_eq bank channel hnot, hends]
  · intro left right hagree
    exact (hfirst.agree left right hagree).andThen hsecond.agree

/-- Putting failures differently keeps an activity local. -/
theorem Local.mapFailure {Reason : Type} (h : Local channels activity) (f : Failure → Reason) :
    Local channels fun bank => (activity bank).mapFailure f :=
  ⟨h.stack_eq, fun left right hagree => (h.agree left right hagree).mapFailure f⟩

/-- A list of local activities is local. -/
theorem local_sequence {Item : Type} {step : Item → Bank → Outcome Bank Report Failure}
    {items : List Item} (h : ∀ item ∈ items, Local channels (step item)) :
    Local channels (Outcome.sequence step items) := by
  constructor
  · intro bank channel hnot
    have hkeeps : (Outcome.sequence step items bank).Ensures
        (fun reached => reached.stack channel = bank.stack channel) fun _ => True := by
      refine Outcome.ensures_sequence (fun item hitem reached hreached => ?_) rfl
      exact ⟨((h item hitem).stack_eq reached channel hnot).trans hreached, fun _ _ => trivial⟩
    exact hkeeps.state
  · intro left right hagree
    have hsame : List.Forall₂ (fun item other => item = other ∧ item ∈ items) items items :=
      List.forall₂_same.mpr fun item hitem => ⟨rfl, hitem⟩
    refine Outcome.agree_sequence (fun item other hboth first second hreached => ?_) hsame hagree
    obtain ⟨rfl, hitem⟩ := hboth
    exact (h item hitem).agree first second hreached

/-! ## Work on a single channel -/

/-- Work on the stack of one channel. -/
def onStack (channel : Channel) (activity : Stack → Outcome Stack Report Failure) (bank : Bank) :
    Outcome Bank Report Failure :=
  let outcome := activity (bank.stack channel)
  ⟨bank.set channel outcome.state, outcome.reports, outcome.result⟩

/-- Banks that hold the same on some channels still do with the same stack set in both. -/
theorem AgreeOn.set (h : AgreeOn channels left right) (channel : Channel) (stack : Stack) :
    AgreeOn channels (left.set channel stack) (right.set channel stack) := by
  intro other hmem
  rw [stack_set, stack_set, h other hmem]

/-- Work on the stack of one channel is local to that channel. -/
theorem local_onStack (hmem : channel ∈ channels)
    (activity : Stack → Outcome Stack Report Failure) :
    Local channels (onStack channel activity) := by
  constructor
  · intro bank other hnot
    have hother : channel ≠ other := fun heq => hnot (heq ▸ hmem)
    exact (stack_set bank channel other _).trans (if_neg hother)
  · intro left right hagree
    unfold onStack
    rw [hagree channel hmem]
    exact ⟨hagree.set channel _, rfl, rfl⟩

/-- Setting the stack that a channel has changes nothing. -/
theorem set_stack (bank : Bank) (channel : Channel) :
    bank.set channel (bank.stack channel) = bank :=
  set_eq_iff.mpr ⟨rfl, fun _ _ => rfl⟩

/-- A computation that gives a channel another stack, unless it fails, works on that stack. -/
theorem ofExcept_map_set (compute : Stack → Except Failure Stack) (bank : Bank) :
    Outcome.ofExcept bank ((compute (bank.stack channel)).map (bank.set channel)) =
      onStack channel (fun stack => .ofExcept stack (compute stack)) bank := by
  unfold onStack
  dsimp only
  cases compute (bank.stack channel) with
  | error failure =>
      show Outcome.fail bank failure = ⟨bank.set channel (bank.stack channel), #[], .error failure⟩
      rw [set_stack]
      rfl
  | ok stack => rfl

/-! ## Order -/

/-- Activities that are local to channels of which they share none commute. -/
theorem Local.commutes (hfirst : Local channels first) (hsecond : Local others second)
    (hdisjoint : channels.Disjoint others) (bank : Bank) : Commutes first second bank := by
  -- What one of them leaves on the channels of the other is what was there before.
  have hothers : AgreeOn others (first bank).state bank := fun channel hmem =>
    hfirst.stack_eq bank channel fun hshared => hdisjoint hshared hmem
  have hchannels : AgreeOn channels (second bank).state bank := fun channel hmem =>
    hsecond.stack_eq bank channel fun hshared => hdisjoint hmem hshared
  have hafterFirst := hsecond.agree _ _ hothers
  have hafterSecond := hfirst.agree _ _ hchannels
  refine ⟨?_, hafterSecond.reports, hafterSecond.result, hafterFirst.reports,
    hafterFirst.result⟩
  ext channel : 1
  by_cases hmem : channel ∈ channels
  · have hnot : channel ∉ others := fun hshared => hdisjoint hmem hshared
    calc (second (first bank).state).state.stack channel
        = (first bank).state.stack channel := hsecond.stack_eq _ channel hnot
      _ = (first (second bank).state).state.stack channel :=
          (hafterSecond.state channel hmem).symm
  · calc (second (first bank).state).state.stack channel
        = (second bank).state.stack channel :=
          hsecond.stack_congr hothers (hfirst.stack_eq bank channel hmem)
      _ = (first (second bank).state).state.stack channel :=
          (hfirst.stack_eq _ channel hmem).symm

end Bank

variable {channels : List Channel} {left right : Bank}

/-! ## Primitives -/

/-- A primitive is local to the channels that it touches. -/
theorem Primitive.local_perform {primitive : Primitive} (h : primitive.Within channels) :
    Bank.Local channels primitive.perform := by
  cases h with
  | @push channel value hmem =>
      have hperform : (push channel value).perform = Bank.onStack channel fun stack =>
          .ofExcept stack (stack.push channel.mnemonic value) :=
        funext (Bank.ofExcept_map_set fun stack => stack.push channel.mnemonic value)
      rw [hperform]
      exact Bank.local_onStack hmem _
  | @pop source hmem =>
      have hperform : (pop source).perform = Bank.onStack source.channel fun stack =>
          .ofExcept stack ((stack.pop source.channel.mnemonic).map Prod.snd) := by
        funext bank
        rw [← Bank.ofExcept_map_set, perform, Bank.pop]
        cases (bank.stack source.channel).pop source.channel.mnemonic <;> rfl
      rw [hperform]
      exact Bank.local_onStack hmem _
  | @look channel hmem =>
      have hperform : (look channel).perform = Bank.onStack channel fun stack =>
          .ofExcept stack ((stack.peek channel.mnemonic).map fun _ => stack) := by
        funext bank
        rw [← Bank.ofExcept_map_set fun stack => (stack.peek channel.mnemonic).map fun _ => stack,
          perform, Bank.peek]
        cases (bank.stack channel).peek channel.mnemonic with
        | error fault => rfl
        | ok newest => exact congrArg Outcome.done (bank.set_stack channel).symm
      rw [hperform]
      exact Bank.local_onStack hmem _
  | flush hmem =>
      refine ⟨fun bank other hnot => ?_, fun left right hagree => ?_⟩
      · have hother : Channel.console ≠ other := fun heq => hnot (heq ▸ hmem)
        exact (Bank.stack_set bank .console other _).trans (if_neg hother)
      · rw [perform, perform, Bank.flush, Bank.flush, hagree .console hmem]
        exact ⟨hagree.set .console _, rfl, rfl⟩
  | record entry => exact Bank.local_const channels _ _
  | exit status => exact Bank.local_const channels _ _

/-- A service comes down to the same primitives on banks that hold the same on its footprint. -/
theorem Interrupt.primitives_congr {interrupt : Interrupt}
    (h : Bank.AgreeOn interrupt.footprint left right) :
    interrupt.primitives left = interrupt.primitives right := by
  cases interrupt with
  | exit =>
      have haccumulator := h .accumulator (by simp [footprint])
      rw [primitives, primitives, Bank.newest, Bank.newest, haccumulator]
  | transfer device =>
      have haccumulator := h .accumulator (by simp [footprint])
      have hdata := h .data (by simp [footprint])
      rw [primitives, primitives, Bank.newest, Bank.newest, haccumulator, hdata]
  | flush => rfl

/-- An action comes down to the same primitives on banks that hold the same on its footprint. -/
theorem Action.primitives_congr {action : Action}
    (h : Bank.AgreeOn action.footprint left right) :
    action.primitives left = action.primitives right := by
  cases action with
  | push channel values => rfl
  | combine operation channel value =>
      have hstack := h channel List.mem_cons_self
      rw [primitives, primitives, Bank.newest, Bank.newest, hstack]
  | interrupt code =>
      rw [footprint, Interrupt.footprintOfCode] at h
      rw [primitives, primitives]
      cases hservice : Interrupt.ofCode? code with
      | none => rfl
      | some service =>
          rw [hservice] at h
          exact Interrupt.primitives_congr h

/-- An action is local to its footprint. -/
theorem Action.local_perform (action : Action) :
    Bank.Local action.footprint action.perform := by
  have hprimitives (bank : Bank) :
      Bank.Local action.footprint (Outcome.sequence Primitive.perform (action.primitives bank)) :=
    Bank.local_sequence fun _ hprimitive => Primitive.local_perform (within_of_mem hprimitive)
  constructor
  · intro bank channel hnot
    rw [action.perform_eq bank]
    exact (hprimitives bank).stack_eq bank channel hnot
  · intro left right hagree
    rw [action.perform_eq left, action.perform_eq right, ← primitives_congr hagree]
    exact (hprimitives left).agree left right hagree

/-! ## Lines and runs -/

namespace Program

/-- The channels that the words behind a mnemonic can concern: those of the service that an `int`
asks for, and the named channel for every other instruction. -/
def footprintOfWords (program : Program) (mnemonic : Mnemonic) (arguments : List String) :
    List Channel :=
  match mnemonic with
  | .mov | .add | .mul => (arguments.head?.bind Channel.ofMnemonic?).toList
  | .int =>
      match arguments.head?.map program.values with
      | some (.ok [code]) => Interrupt.footprintOfCode code
      | _ => []

/-- The channels that a line reads or changes. A line without a mnemonic has none. -/
def footprint (program : Program) (line : Line) : List Channel :=
  match line.words with
  | [] => []
  | word :: arguments =>
      match Mnemonic.ofWord? word with
      | none => []
      | some mnemonic => program.footprintOfWords mnemonic arguments

/-- The channels that the lines of an event read or change. -/
def eventFootprint (program : Program) (name : String) : List Channel :=
  ((program.event? name).getD []).flatMap program.footprint

variable {program : Program}

/-- The footprint of an action can be told from its words. -/
theorem footprint_of_action {mnemonic : Mnemonic} {arguments : List String} {action : Action}
    (h : program.action mnemonic arguments = .ok action) :
    action.footprint = program.footprintOfWords mnemonic arguments := by
  have hnamed (channel : Channel) : Channel.ofMnemonic? channel.mnemonic = some channel :=
    Channel.ofMnemonic?_eq_some_iff.mpr rfl
  cases reads_of_action h with
  | @push channel =>
      show [channel] = (Channel.ofMnemonic? channel.mnemonic).toList
      rw [hnamed]
      rfl
  | @combine operation channel operand value rest hvalues =>
      have hwords :
          program.footprintOfWords operation.mnemonic (channel.mnemonic :: operand :: rest) =
            (Channel.ofMnemonic? channel.mnemonic).toList := by
        cases operation <;> rfl
      rw [hwords, hnamed]
      rfl
  | @interrupt operand code rest hvalues =>
      rw [footprintOfWords, List.head?_cons, Option.map_some, hvalues]
      rfl

/-- A line is local to its footprint. -/
theorem local_step (program : Program) (line : Line) :
    Bank.Local (program.footprint line) (program.step line) := by
  unfold footprint step
  cases line.words with
  | nil => exact Bank.local_const _ _ _
  | cons word arguments =>
      dsimp only
      cases Mnemonic.ofWord? word with
      | none => exact Bank.local_const _ _ _
      | some mnemonic =>
          refine Bank.Local.andThen (Bank.local_const _ _ _) ?_
          dsimp only
          cases haction : program.action mnemonic arguments with
          | error fault => exact Bank.local_const _ _ _
          | ok action =>
              rw [← footprint_of_action haction]
              exact action.local_perform

/-- A run is local to the footprints of the lines in the event's block. -/
theorem local_run (program : Program) (name : String) :
    Bank.Local (program.eventFootprint name) (program.run name) := by
  unfold eventFootprint run
  cases program.event? name with
  | none => exact Bank.local_const _ _ _
  | some lines =>
      refine Bank.Local.andThen (Bank.local_const _ _ _) (Bank.local_sequence fun line hline => ?_)
      refine ((program.local_step line).mono fun channel hmem => ?_).mapFailure _
      exact List.mem_flatMap.mpr ⟨line, hline, hmem⟩

/-- A line reads and changes no channel outside its footprint. Hence running an event leaves every
channel alone that is in no footprint of its lines, and lines that share no channel commute, also
when they fail. -/
theorem step_footprint (program : Program) :
    (∀ line, Bank.Local (program.footprint line) (program.step line)) ∧
      (∀ name channel,
        (∀ lines, program.event? name = some lines →
          ∀ line ∈ lines, channel ∉ program.footprint line) →
        ∀ bank, (program.run name bank).state.stack channel = bank.stack channel) ∧
      ∀ line other, (program.footprint line).Disjoint (program.footprint other) →
        ∀ bank, Bank.Commutes (program.step line) (program.step other) bank := by
  refine ⟨program.local_step, fun name channel hnot bank => ?_,
    fun line other hdisjoint bank =>
      (program.local_step line).commutes (program.local_step other) hdisjoint bank⟩
  refine (program.local_run name).stack_eq bank channel fun hmem => ?_
  obtain ⟨line, hline, hfootprint⟩ := List.mem_flatMap.mp hmem
  cases hevent : program.event? name with
  | none =>
      rw [hevent] at hline
      cases hline
  | some lines =>
      rw [hevent] at hline
      exact hnot lines hevent line hline hfootprint

/-- A transfer that fails with an entry taken off already commutes with a `mov` to the counter. -/
theorem step_footprint_crowdedConsole :
    let line := Line.ofText 1 "int 0x01"
    let other := Line.ofText 2 "mov ecx 7"
    bare.footprint line = [.accumulator, .data, .console] ∧ bare.footprint other = [.count] ∧
      (bare.step line Bank.crowdedConsole).result = .error (.stackOverflow "eco") ∧
      ((bare.step line Bank.crowdedConsole).state.stack .data).entries = [0] ∧
      Bank.Commutes (bare.step line) (bare.step other) Bank.crowdedConsole := by
  intro line other
  have hline : bare.footprint line = [.accumulator, .data, .console] := rfl
  have hother : bare.footprint other = [.count] := rfl
  refine ⟨hline, hother, rfl, rfl, ?_⟩
  obtain ⟨-, -, hcommutes⟩ := bare.step_footprint
  refine hcommutes line other ?_ Bank.crowdedConsole
  rw [hline, hother, List.disjoint_singleton]
  decide

end Program

end ChannelAsm
