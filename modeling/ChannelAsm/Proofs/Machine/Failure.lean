import ChannelAsm.Proofs.Machine.Conservation
import ChannelAsm.Proofs.Machine.Faults

/-!
# How lines fail

There can be several objections to a line. `Program.objections` lists them in the order in which
they count: first those that the text shows, then that of the channels. By `Program.heeds_perform`
the words of a line fail with the first. `Program.step_objection` draws the conclusion: a line that
fails does so with the first objection and leaves every channel as it was, unless it is a transfer,
or a `mov` whose values do not all have room.
-/

namespace ChannelAsm.Program

variable {program : Program} {mnemonic : Mnemonic} {arguments : List String} {fault : Fault}

/-- What is objected to a line with a mnemonic: what its text shows, then what the channels
object. -/
def objections (program : Program) (mnemonic : Mnemonic) (arguments : List String) (bank : Bank) :
    List (Option Fault) :=
  program.textObjections mnemonic arguments ++
    [(program.action mnemonic arguments).toOption.bind (·.objection? bank)]

/-- A full channel is no fault of the text. -/
theorem code_ne_of_action (h : program.action mnemonic arguments = .error fault) :
    fault.code ≠ .stackOverflow := by
  have htext : ∀ fault : Fault, fault.OfText → fault.code ≠ .stackOverflow := by
    intro fault htext hcode
    simp [Fault.OfText, hcode] at htext
  have hvalues : ∀ token, FailsOnly (fun fault => fault.code ≠ .stackOverflow)
      (program.values token) := by
    intro token
    refine (failsOnly_values program token).mono fun fault hmeaning hcode => ?_
    simp [hcode] at hmeaning
  exact failsOnly_action htext hvalues mnemonic arguments fault h

/-- The words ask for a transfer. -/
def IsTransfer (program : Program) (mnemonic : Mnemonic) (arguments : List String) : Prop :=
  ∃ device, program.Reads mnemonic arguments (.interrupt (Interrupt.transfer device).code)

/-- What a line that fails leaves: all as it was when its words mean nothing. -/
def Leaves (program : Program) (mnemonic : Mnemonic) (arguments : List String) (bank left : Bank) :
    Prop :=
  match program.action mnemonic arguments with
  | .ok action => action.Leaves bank left
  | .error _ => left = bank

/-- Carry out the words of a line: look up the action and perform it. -/
def perform (program : Program) (mnemonic : Mnemonic) (arguments : List String) (bank : Bank) :
    Outcome Bank Report Fault :=
  match program.action mnemonic arguments with
  | .error fault => .fail bank fault
  | .ok action => action.perform bank

/-- The words of a line fail with the first objection. -/
theorem heeds_perform (program : Program) (mnemonic : Mnemonic) (arguments : List String)
    (bank : Bank) : Heeds (program.Leaves mnemonic arguments bank)
      ((program.objections mnemonic arguments bank).findSome? id)
      (program.perform mnemonic arguments bank) := by
  rw [objections, List.findSome?_append, ← of?_action]
  unfold Leaves perform
  cases program.action mnemonic arguments with
  | error fault => exact .failure fault rfl
  | ok action =>
      rw [List.findSome?_singleton]
      exact action.heeds_perform bank

/-- A line that fails has a mnemonic. It is recorded, and then its words are carried out. -/
theorem exists_step_eq {line : Line} {bank : Bank}
    (h : (program.step line bank).result = .error fault) :
    ∃ mnemonic arguments, line.words = mnemonic.word :: arguments ∧ program.step line bank =
      (Outcome.reporting bank #[.record (.executed line.text)]).andThen
        (program.perform mnemonic arguments) := by
  unfold step at h ⊢
  split at h
  · cases h
  · rename_i word arguments hwords
    cases hmnemonic : Mnemonic.ofWord? word with
    | none =>
        rw [hmnemonic] at h
        cases h
    | some mnemonic =>
        rw [← Mnemonic.ofWord?_eq_some_iff.mp hmnemonic] at hwords
        exact ⟨mnemonic, arguments, hwords, rfl⟩

/-- An instruction other than `mov` that is no transfer has done nothing when it fails. -/
theorem Leaves.eq_of_ne {bank left : Bank} (h : program.Leaves mnemonic arguments bank left)
    (hmov : mnemonic ≠ .mov) (htransfer : ¬ program.IsTransfer mnemonic arguments) :
    left = bank := by
  unfold Leaves at h
  cases haction : program.action mnemonic arguments with
  | error fault =>
      rw [haction] at h
      exact h
  | ok action =>
      rw [haction] at h
      cases reads_of_action haction with
      | push => contradiction
      | combine => exact h
      | interrupt rest hvalues =>
          refine h fun device hcode => htransfer ⟨device, ?_⟩
          rw [← hcode]
          exact .interrupt rest hvalues

/-- A `mov` that fails has done nothing, or fails on a full channel. -/
theorem Leaves.cases_of_mov {bank left : Bank} (h : program.Leaves mnemonic arguments bank left)
    (hobjection : (program.objections mnemonic arguments bank).findSome? id = some fault)
    (hmov : mnemonic = .mov) :
    (left = bank ∧ fault.code ≠ .stackOverflow) ∨
      ∃ channel operand values rest, arguments = channel.mnemonic :: operand :: rest ∧
        program.values operand = .ok values ∧ fault = .stackOverflow channel.mnemonic ∧
        bank.room channel < values.length ∧ bank.Filled channel values left := by
  rw [objections, List.findSome?_append, ← of?_action, List.findSome?_singleton] at hobjection
  unfold Leaves at h
  cases haction : program.action mnemonic arguments with
  | error other =>
      rw [haction] at h hobjection
      obtain rfl : other = fault := Option.some.inj hobjection
      exact .inl ⟨h, code_ne_of_action haction⟩
  | ok action =>
      rw [haction] at h hobjection
      cases reads_of_action haction with
      | @push channel operand values rest hvalues =>
          have hoverflow : bank.overflow? channel values.length = some fault := hobjection
          obtain ⟨hroom, hfault⟩ := Option.ite_none_right_eq_some.mp hoverflow
          obtain rfl := Option.some.inj hfault
          exact .inr ⟨channel, operand, values, rest, rfl, hvalues, rfl, hroom, h⟩
      | @combine operation => cases operation <;> cases hmov
      | interrupt => cases hmov

/-- A line that fails does so with the first objection to it and prints nothing. It leaves every
channel as it was, unless it is a transfer, or a `mov` that fails on a full channel. Such a `mov`
has put values on that channel, in order, until it was full, and has changed no other. -/
theorem step_objection {line : Line} {bank : Bank}
    (hheight : ∀ channel, (bank.stack channel).entries.length ≤ 65535)
    (hfails : (program.step line bank).result = .error fault) :
    ∃ mnemonic arguments, line.words = mnemonic.word :: arguments ∧
      (program.objections mnemonic arguments bank).findSome? id = some fault ∧
      let outcome := program.step line bank
      Report.outputs outcome.reports = #[] ∧
      (¬ program.IsTransfer mnemonic arguments →
        ¬ (mnemonic = .mov ∧ fault.code = .stackOverflow) → outcome.state = bank) ∧
      (mnemonic = .mov → fault.code = .stackOverflow → ∃ channel operand values rest,
        arguments = channel.mnemonic :: operand :: rest ∧ program.values operand = .ok values ∧
        fault = .stackOverflow channel.mnemonic ∧
        let room := 65535 - (bank.stack channel).entries.length
        room < values.length ∧
        (outcome.state.stack channel).toList =
          (bank.stack channel).toList ++ values.take room ∧
        (outcome.state.stack channel).entries.length = 65535 ∧
        ∀ other, other ≠ channel → outcome.state.stack other = bank.stack other) := by
  obtain ⟨mnemonic, arguments, hwords, hstep⟩ := exists_step_eq hfails
  rw [hstep] at hfails
  obtain ⟨hobjection, left, hleaves, hfail⟩ :=
    (program.heeds_perform mnemonic arguments bank).of_error hfails
  refine ⟨mnemonic, arguments, hwords, hobjection, ?_⟩
  rw [hstep, Outcome.reporting, Outcome.ok_andThen, hfail]
  refine ⟨rfl, fun htransfer hnot => ?_, ?_⟩
  · by_cases hmov : mnemonic = .mov
    · subst hmov
      rcases hleaves.cases_of_mov hobjection rfl with ⟨hleft, -⟩ | ⟨channel, _, _, _, -, -, rfl, -⟩
      · exact hleft
      · exact absurd ⟨rfl, rfl⟩ hnot
    · exact hleaves.eq_of_ne hmov htransfer
  · rintro rfl hcode
    rcases hleaves.cases_of_mov hobjection rfl with
      ⟨-, hother⟩ | ⟨channel, operand, values, rest, harguments, hvalues, hfault, hroom, hfilled⟩
    · exact absurd hcode hother
    · refine ⟨channel, operand, values, rest, harguments, hvalues, hfault, hroom,
        hfilled.toList_channel, ?_, fun other hother => hfilled.stack_eq other hother.symm⟩
      -- Not all values have had room, so the channel is full now, and was not above the limit.
      have hlength := congrArg List.length hfilled.toList_channel
      rw [Stack.toList, Stack.toList, List.length_reverse, List.length_append, List.length_reverse,
        List.length_take, Bank.room, Stack.limit] at hlength
      have hbelow := hheight channel
      unfold Bank.room Stack.limit at hroom
      show (left.stack channel).entries.length = 65535
      omega

/-- A program without lines and without symbols. -/
def bare : Program :=
  ⟨[], (Layout.empty 4).memory, (Layout.empty 4).symbols⟩

/-- A `mov` to a console without room fails and has pushed nothing. -/
theorem step_objection_crowdedConsole :
    (∀ channel, (Bank.crowdedConsole.stack channel).entries.length ≤ 65535) ∧
      let line := Line.ofText 1 "mov eco 1"
      let outcome := bare.step line Bank.crowdedConsole
      outcome.result = .error (.stackOverflow "eco") ∧
      ∃ mnemonic arguments, line.words = mnemonic.word :: arguments ∧
        (bare.objections mnemonic arguments Bank.crowdedConsole).findSome? id =
          some (.stackOverflow "eco") := by
  have hheight := Bank.length_crowdedConsole_le
  have hfails : (bare.step (Line.ofText 1 "mov eco 1") Bank.crowdedConsole).result =
      .error (.stackOverflow "eco") :=
    rfl
  obtain ⟨mnemonic, arguments, hwords, hobjection, -⟩ := step_objection hheight hfails
  exact ⟨hheight, hfails, mnemonic, arguments, hwords, hobjection⟩

end ChannelAsm.Program
