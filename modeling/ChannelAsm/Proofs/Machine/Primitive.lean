import ChannelAsm.Machine.Run
import ChannelAsm.Proofs.Machine.Bank

/-!
# Primitives

Carrying out a line comes down to primitives, each of which touches one channel. `Primitive.perform`
says all that one of them can do, so that what every primitive keeps is kept by whatever a machine
does. `Action.perform_eq` says that an action is the sequence of its primitives, and
`Program.step_eq` says the same of a line. By `Action.within_of_mem` the primitives of an action
touch the channels of its footprint only.
-/

namespace ChannelAsm

/-- A register that entries are taken off one by one. -/
inductive Scratch where
  | accumulator
  | data
  deriving DecidableEq

/-- The channel of a scratch register. -/
def Scratch.channel : Scratch → Channel
  | accumulator => .accumulator
  | data => .data

/-- The channel is that of a scratch register. -/
def Channel.IsScratch (channel : Channel) : Prop :=
  channel = .accumulator ∨ channel = .data

/-- A scratch register has a scratch channel. -/
theorem Scratch.isScratch (source : Scratch) : source.channel.IsScratch := by
  cases source with
  | accumulator => exact .inl rfl
  | data => exact .inr rfl

/-- The smallest thing that happens to a bank. -/
inductive Primitive where
  /-- Put a value on top of a channel. -/
  | push (channel : Channel) (value : Int32)
  /-- Take the newest entry off a scratch channel. -/
  | pop (source : Scratch)
  /-- Look at the newest entry of a channel. -/
  | look (channel : Channel)
  /-- Print what waits on the console channel. -/
  | flush
  /-- Record something. -/
  | record (entry : Record)
  /-- Tell that the program leaves with a status. -/
  | exit (status : Int32)
  /-- Tell that no event has a label. -/
  | miss (label : String)
  /-- Stop with a fault. -/
  | refuse (fault : Fault)
  /-- Bring every channel back to its first entry. -/
  | reset

namespace Primitive

/-- Carry out a primitive. -/
def perform : Primitive → Bank → Outcome Bank Report Fault
  | push channel value, bank => .ofExcept bank (bank.push channel value)
  | pop source, bank => .ofExcept bank ((bank.pop source.channel).map Prod.snd)
  | look channel, bank => .ofExcept bank ((bank.peek channel).map fun _ => bank)
  | flush, bank => bank.flush
  | record entry, bank => .reporting bank #[.record entry]
  | exit status, bank => .reporting bank #[.record (.exited status), .output (.exit status)]
  | miss label, bank =>
      .reporting bank #[.record (.eventMissing label), .output (.missingEvent label)]
  | refuse fault, bank => .fail bank fault
  | reset, _ => .done .initial

/-- The primitives of moving entries, which stand on the data channel in this order, to another
channel. Where the entries give out the next pop fails. -/
def moves (target : Channel) : Nat → List Int32 → List Primitive
  | 0, _ => []
  | _ + 1, [] => [pop .data]
  | count + 1, value :: rest => pop .data :: push target value :: moves target count rest

/-- The primitives of leaving with a status. -/
def leaves (status : Int32) : List Primitive :=
  if status = 0 then [] else [exit status]

end Primitive

/-- The newest entry of a channel. It matters only where there is one, as a primitive that needs it
fails otherwise. -/
def Bank.newest (bank : Bank) (channel : Channel) : Int32 :=
  (bank.stack channel).top?.getD Bank.base

/-- The primitives of a service. -/
def Interrupt.primitives (bank : Bank) : Interrupt → List Primitive
  | .exit => .pop .accumulator :: Primitive.leaves (bank.newest .accumulator - 1)
  | .transfer device =>
      .pop .accumulator :: Primitive.moves device.channel
        (bank.newest .accumulator).toInt.toNat (bank.stack .data).entries
  | .flush => [.flush]

/-- The primitives of an action. -/
def Action.primitives (bank : Bank) : Action → List Primitive
  | .push channel values => values.map (.push channel)
  | .combine operation channel value =>
      [.look channel, .push channel (operation.apply (bank.newest channel) value)]
  | .interrupt code =>
      match Interrupt.ofCode? code with
      | some service => service.primitives bank
      | none => [.record (.unhandled code)]

/-- The primitives of a line. -/
def Program.primitives (program : Program) (line : Line) (bank : Bank) : List Primitive :=
  match line.words with
  | [] => []
  | word :: arguments =>
      match Mnemonic.ofWord? word with
      | none => [.record (.skipped line.text)]
      | some mnemonic =>
          .record (.executed line.text) ::
            match program.action mnemonic arguments with
            | .error fault => [.refuse fault]
            | .ok action => action.primitives bank

/-! ## Actions are sequences of primitives -/

/-- The newest entry of a channel is the first. -/
theorem Bank.newest_of_entries {bank : Bank} {channel : Channel} {value : Int32}
    {rest : List Int32} (h : (bank.stack channel).entries = value :: rest) :
    bank.newest channel = value := by
  rw [newest, Stack.top?, h]
  rfl

namespace Primitive

/-- Popping an entry that is there. -/
theorem perform_pop_of_ok {bank popped : Bank} (source : Scratch) {value : Int32}
    (h : bank.pop source.channel = .ok (value, popped)) :
    (pop source).perform bank = .done popped := by
  rw [perform, h]
  rfl

/-- Popping an entry that is not there. -/
theorem perform_pop_of_error {bank : Bank} (source : Scratch) {fault : Fault}
    (h : bank.pop source.channel = .error fault) :
    (pop source).perform bank = .fail bank fault := by
  rw [perform, h]
  rfl

/-- Pushing values in order is pushing one after the other. -/
theorem pushAll_eq (channel : Channel) (values : List Int32) (bank : Bank) :
    bank.pushAll channel values = Outcome.sequence perform (values.map (push channel)) bank := by
  rw [Outcome.sequence, List.foldl_map]
  rfl

/-- Moving entries is popping and pushing them in turn. -/
theorem move_eq {target : Channel} (htarget : target ≠ .data) (count : Nat) (bank : Bank) :
    bank.move target count =
      Outcome.sequence perform (moves target count (bank.stack .data).entries) bank := by
  induction count generalizing bank with
  | zero => rfl
  | succ count ih =>
      rw [Bank.move]
      cases hpop : bank.pop .data with
      | error fault =>
          obtain ⟨hempty, _⟩ := Bank.pop_eq_error_iff.mp hpop
          rw [hempty, moves, Outcome.sequence_cons, perform_pop_of_error .data hpop]
          rfl
      | ok taken =>
          obtain ⟨value, popped⟩ := taken
          obtain ⟨hentries, _⟩ := Bank.pop_eq_ok_iff.mp hpop
          rw [hentries, moves, Outcome.sequence_cons, perform_pop_of_ok .data hpop,
            Outcome.done_andThen, Outcome.sequence_cons, perform]
          dsimp only
          cases hpush : popped.push target value with
          | error fault => rfl
          | ok pushed =>
              -- The target is another channel, so the push leaves what is still to be moved.
              obtain ⟨_, _, hothers⟩ := Bank.push_eq_ok_iff.mp hpush
              dsimp only [Outcome.ofExcept]
              rw [ih pushed, hothers .data htarget, Outcome.done_andThen]

end Primitive

/-- Leaving with a status is popping the accumulator and reporting what was there. -/
theorem Bank.leave_eq (bank : Bank) :
    bank.leave = Outcome.sequence Primitive.perform (Interrupt.primitives bank .exit) bank := by
  rw [leave, Interrupt.primitives, Outcome.sequence_cons]
  cases hpop : bank.pop .accumulator with
  | error fault =>
      rw [Primitive.perform_pop_of_error .accumulator hpop]
      rfl
  | ok taken =>
      obtain ⟨value, popped⟩ := taken
      obtain ⟨hentries, _⟩ := pop_eq_ok_iff.mp hpop
      rw [Primitive.perform_pop_of_ok .accumulator hpop, Outcome.done_andThen,
        newest_of_entries hentries, Primitive.leaves]
      dsimp only
      split
      · rfl
      · rfl

/-- A transfer is popping the accumulator and moving as many entries as was there. -/
theorem Bank.transfer_eq (device : Device) (bank : Bank) :
    bank.transfer device.channel =
      Outcome.sequence Primitive.perform (Interrupt.primitives bank (.transfer device)) bank := by
  rw [transfer, Interrupt.primitives, Outcome.sequence_cons]
  cases hpop : bank.pop .accumulator with
  | error fault =>
      rw [Primitive.perform_pop_of_error .accumulator hpop]
      rfl
  | ok taken =>
      obtain ⟨count, popped⟩ := taken
      obtain ⟨hentries, hothers⟩ := pop_eq_ok_iff.mp hpop
      have htarget : device.channel ≠ .data := by cases device <;> decide
      rw [Primitive.perform_pop_of_ok .accumulator hpop, Outcome.done_andThen,
        newest_of_entries hentries, ← hothers .data (by decide)]
      exact Primitive.move_eq htarget count.toInt.toNat popped

/-- Arithmetic is looking at the newest entry and pushing the result. -/
theorem Bank.combine_eq (operation : Arithmetic) (channel : Channel) (value : Int32)
    (bank : Bank) :
    bank.combine operation channel value =
      Outcome.sequence Primitive.perform
        ((Action.combine operation channel value).primitives bank) bank := by
  rw [combine, Action.primitives, Outcome.sequence_cons, Primitive.perform]
  cases hpeek : bank.peek channel with
  | error fault => rfl
  | ok newest =>
      obtain ⟨rest, hentries⟩ := List.head?_eq_some_iff.mp (peek_eq_ok_iff.mp hpeek)
      rw [newest_of_entries hentries]
      show _ = (Outcome.done bank).andThen (Outcome.sequence _ [_])
      rw [Outcome.done_andThen, Outcome.sequence_singleton]
      rfl

/-- An action is the sequence of its primitives. -/
theorem Action.perform_eq (action : Action) (bank : Bank) :
    action.perform bank = Outcome.sequence Primitive.perform (action.primitives bank) bank := by
  cases action with
  | push channel values => exact Primitive.pushAll_eq channel values bank
  | combine operation channel value => exact bank.combine_eq operation channel value
  | interrupt code =>
      rw [perform, Bank.interrupt, primitives]
      cases Interrupt.ofCode? code with
      | none => rfl
      | some service =>
          cases service with
          | exit => exact bank.leave_eq
          | transfer device => exact bank.transfer_eq device
          | flush =>
              dsimp only [Interrupt.primitives]
              rw [Outcome.sequence_singleton]
              rfl

/-- A line is the sequence of its primitives. -/
theorem Program.step_eq (program : Program) (line : Line) (bank : Bank) :
    program.step line bank =
      Outcome.sequence Primitive.perform (program.primitives line bank) bank := by
  rw [step, primitives]
  cases line.words with
  | nil => rfl
  | cons word arguments =>
      dsimp only
      cases Mnemonic.ofWord? word with
      | none =>
          dsimp only
          rw [Outcome.sequence_singleton]
          rfl
      | some mnemonic =>
          dsimp only
          rw [Outcome.sequence_cons, Primitive.perform, Outcome.reporting, Outcome.ok_andThen,
            Outcome.ok_andThen]
          cases program.action mnemonic arguments with
          | error fault => rfl
          | ok action =>
              dsimp only
              rw [action.perform_eq bank]

/-! ## Which channels the primitives of an action touch -/

/-- The channels that a service reads or changes. -/
def Interrupt.footprint : Interrupt → List Channel
  | .exit => [.accumulator]
  | .transfer device => [.accumulator, .data, device.channel]
  | .flush => [.console]

/-- The channels that a program reads or changes when it asks for the service with a code. -/
def Interrupt.footprintOfCode (code : Int32) : List Channel :=
  match ofCode? code with
  | some service => service.footprint
  | none => []

/-- The channels that an action reads or changes. -/
def Action.footprint : Action → List Channel
  | .push channel _ => [channel]
  | .combine _ channel _ => [channel]
  | .interrupt code => Interrupt.footprintOfCode code

/-- The primitive can be part of an action, and touches none but these channels. -/
inductive Primitive.Within (channels : List Channel) : Primitive → Prop where
  | push {channel : Channel} (value : Int32) :
      channel ∈ channels → Within channels (.push channel value)
  | pop {source : Scratch} : source.channel ∈ channels → Within channels (.pop source)
  | look {channel : Channel} : channel ∈ channels → Within channels (.look channel)
  | flush : .console ∈ channels → Within channels .flush
  | record (entry : Record) : Within channels (.record entry)
  | exit (status : Int32) : Within channels (.exit status)

variable {channels : List Channel} {primitive : Primitive} {bank : Bank}

/-- Moving entries touches the data channel and the target. -/
theorem Primitive.within_of_mem_moves {target : Channel} {count : Nat} {entries : List Int32}
    (hdata : .data ∈ channels) (htarget : target ∈ channels)
    (h : primitive ∈ moves target count entries) : primitive.Within channels := by
  induction count generalizing entries with
  | zero => cases h
  | succ count ih =>
      cases entries with
      | nil =>
          obtain rfl := List.mem_singleton.mp h
          exact .pop hdata
      | cons value rest =>
          rcases List.mem_cons.mp h with rfl | h
          · exact .pop hdata
          · rcases List.mem_cons.mp h with rfl | h
            · exact .push value htarget
            · exact ih h

/-- A service touches the channels of its footprint only. -/
theorem Interrupt.within_of_mem {interrupt : Interrupt}
    (h : primitive ∈ interrupt.primitives bank) : primitive.Within interrupt.footprint := by
  cases interrupt with
  | exit =>
      rcases List.mem_cons.mp h with rfl | h
      · exact .pop List.mem_cons_self
      · unfold Primitive.leaves at h
        split at h
        · cases h
        · obtain rfl := List.mem_singleton.mp h
          exact .exit _
  | transfer device =>
      rcases List.mem_cons.mp h with rfl | h
      · exact .pop List.mem_cons_self
      · exact Primitive.within_of_mem_moves (by simp [footprint]) (by simp [footprint]) h
  | flush =>
      obtain rfl := List.mem_singleton.mp h
      exact .flush List.mem_cons_self

/-- An action touches the channels of its footprint only. -/
theorem Action.within_of_mem {action : Action} (h : primitive ∈ action.primitives bank) :
    primitive.Within action.footprint := by
  cases action with
  | push channel values =>
      obtain ⟨value, _, rfl⟩ := List.mem_map.mp h
      exact .push value List.mem_cons_self
  | combine operation channel value =>
      rcases List.mem_cons.mp h with rfl | h
      · exact .look List.mem_cons_self
      · obtain rfl := List.mem_singleton.mp h
        exact .push _ List.mem_cons_self
  | interrupt code =>
      rw [primitives] at h
      rw [footprint, Interrupt.footprintOfCode]
      cases hservice : Interrupt.ofCode? code with
      | none =>
          rw [hservice] at h
          obtain rfl := List.mem_singleton.mp h
          exact .record _
      | some service =>
          rw [hservice] at h
          exact Interrupt.within_of_mem h

/-! ## The primitives of a line -/

/-- The primitive can be part of a line whose text shows allowed faults only. No line resets. -/
def Primitive.OfLine (allowed : Fault → Prop) : Primitive → Prop
  | refuse fault => allowed fault
  | reset => False
  | _ => True

variable {allowed : Fault → Prop}

/-- An action stops with no fault of its own. -/
theorem Primitive.Within.ofLine (h : primitive.Within channels) : primitive.OfLine allowed := by
  cases h <;> trivial

/-- A line stops with a fault of its own only where reading it does. -/
theorem Program.ofLine_of_mem {program : Program} {line : Line}
    (haction : ∀ mnemonic arguments, FailsOnly allowed (program.action mnemonic arguments))
    (h : primitive ∈ program.primitives line bank) : primitive.OfLine allowed := by
  unfold primitives at h
  split at h
  · cases h
  · split at h
    · obtain rfl := List.mem_singleton.mp h
      trivial
    · rename_i arguments _ _ mnemonic _
      rcases List.mem_cons.mp h with rfl | h
      · trivial
      · cases hread : program.action mnemonic arguments with
        | error fault =>
            rw [hread] at h
            obtain rfl := List.mem_singleton.mp h
            exact haction mnemonic arguments fault hread
        | ok action =>
            rw [hread] at h
            exact (Action.within_of_mem h).ofLine

end ChannelAsm
