import Mathlib.Data.Option.Basic
import ChannelAsm.Proofs.Machine.Primitive
import ChannelAsm.Proofs.Machine.Transfer

/-!
# What channels object to actions

An action fails when a channel runs out of entries or of room. `Action.objection?` says, from the
channels alone, whether this happens and with which fault. `Heeds` says that an activity fails
exactly when there is an objection, prints nothing then, and leaves channels of a certain kind; by
`Action.heeds_perform` every action does. Only a push or a transfer that fails can have done
something.
-/

namespace ChannelAsm

/-- `Heeds left objection? outcome` says that an activity fails exactly when something is objected
to it. It then prints nothing and leaves a bank of which `left` holds. -/
inductive Heeds (left : Bank → Prop) : Option Fault → Outcome Bank Report Fault → Prop where
  | success (reached : Bank) (reports : Array Report) :
      Heeds left none (.reporting reached reports)
  | failure {reached : Bank} (fault : Fault) (hleft : left reached) :
      Heeds left (some fault) (.fail reached fault)

/-- Less can be said of the bank that is left. -/
theorem Heeds.mono {left weaker : Bank → Prop} {objection? : Option Fault}
    {outcome : Outcome Bank Report Fault} (h : Heeds left objection? outcome)
    (hweaker : ∀ reached, left reached → weaker reached) : Heeds weaker objection? outcome := by
  cases h with
  | success reached reports => exact .success reached reports
  | failure fault hleft => exact .failure fault (hweaker _ hleft)

/-- An activity that fails does so with the objection. -/
theorem Heeds.of_error {left : Bank → Prop} {objection? : Option Fault} {fault : Fault}
    {outcome : Outcome Bank Report Fault} (h : Heeds left objection? outcome)
    (hfails : outcome.result = .error fault) :
    objection? = some fault ∧ ∃ reached, left reached ∧ outcome = .fail reached fault := by
  cases h with
  | success => cases hfails
  | failure fault hleft =>
      cases hfails
      exact ⟨rfl, _, hleft, rfl⟩

/-! ## Channels that run out -/

namespace Bank

/-- The fault of taking so many entries off a channel that has fewer. -/
def underflow? (bank : Bank) (channel : Channel) (count : Nat) : Option Fault :=
  if (bank.stack channel).entries.length < count then some (.stackUnderflow channel.mnemonic)
  else none

/-- The fault of putting so many entries on a channel that has room for fewer. -/
def overflow? (bank : Bank) (channel : Channel) (count : Nat) : Option Fault :=
  if bank.room channel < count then some (.stackOverflow channel.mnemonic) else none

/-- `Filled channel values bank left` says that the values have been put on the channel in order, as
far as they have room, and nothing else is different. -/
structure Filled (channel : Channel) (values : List Int32) (bank left : Bank) : Prop where
  toList_channel : (left.stack channel).toList =
    (bank.stack channel).toList ++ values.take (bank.room channel)
  stack_eq : ∀ other, channel ≠ other → left.stack other = bank.stack other

end Bank

/-- What the channels object to a service. A transfer whose count is there fails for want of entries
when all of these have room, and otherwise for want of room. -/
def Interrupt.objection? (bank : Bank) : Interrupt → Option Fault
  | .exit => bank.underflow? .accumulator 1
  | .transfer device =>
      let wanted := (bank.newest .accumulator).toInt.toNat
      bank.underflow? .accumulator 1 <|>
        if (bank.stack .data).entries.length ≤ bank.room device.channel then
          bank.underflow? .data wanted
        else bank.overflow? device.channel wanted
  | .flush => none

/-- What the channels object to an action. -/
def Action.objection? (bank : Bank) : Action → Option Fault
  | .push channel values => bank.overflow? channel values.length
  | .combine _ channel _ => bank.underflow? channel 1 <|> bank.overflow? channel 1
  | .interrupt code => (Interrupt.ofCode? code).bind (·.objection? bank)

/-- `Leaves bank action left` says what is left when the action fails: some of its values are on the
channel of a push, a transfer is not described further, and other actions have done nothing. -/
def Action.Leaves (bank : Bank) : Action → Bank → Prop
  | .push channel values, left => bank.Filled channel values left
  | .combine .., left => left = bank
  | .interrupt code, left => (∀ device, code ≠ (Interrupt.transfer device).code) → left = bank

namespace Bank

variable {bank : Bank} {channel : Channel}

/-- An empty channel has no entry to take. -/
theorem underflow?_one_of_nil (h : (bank.stack channel).entries = []) :
    bank.underflow? channel 1 = some (.stackUnderflow channel.mnemonic) := by
  rw [underflow?, h, if_pos (by decide)]

/-- One entry can be taken when there is one. -/
theorem underflow?_one_of_cons {value : Int32} {below : List Int32}
    (h : (bank.stack channel).entries = value :: below) : bank.underflow? channel 1 = none := by
  rw [underflow?, h, if_neg]
  simp

/-- Pushing values fails when they do not all have room. -/
theorem heeds_pushAll (bank : Bank) (channel : Channel) (values : List Int32) :
    Heeds (bank.Filled channel values) (bank.overflow? channel values.length)
      (bank.pushAll channel values) := by
  obtain ⟨left, hpush, htarget, hothers⟩ := bank.exists_pushAll_eq channel values
  rw [hpush, overflow?]
  by_cases hroom : values.length ≤ bank.room channel
  · rw [if_pos hroom, if_neg (Nat.not_lt.mpr hroom)]
    exact .success left #[]
  · rw [if_neg hroom, if_pos (Nat.not_le.mp hroom)]
    exact .failure _ ⟨htarget, hothers⟩

/-- Arithmetic fails without an entry to look at, and without room for the result. -/
theorem heeds_combine (bank : Bank) (operation : Arithmetic) (channel : Channel) (value : Int32) :
    Heeds (· = bank) (bank.underflow? channel 1 <|> bank.overflow? channel 1)
      (bank.combine operation channel value) := by
  rw [combine]
  cases hpeek : bank.peek channel with
  | error fault =>
      obtain ⟨hempty, rfl⟩ := peek_eq_error_iff.mp hpeek
      rw [underflow?_one_of_nil hempty]
      exact .failure _ rfl
  | ok newest =>
      obtain ⟨below, hentries⟩ := List.head?_eq_some_iff.mp (peek_eq_ok_iff.mp hpeek)
      rw [underflow?_one_of_cons hentries, overflow?]
      show Heeds _ _ (.ofExcept bank (bank.push channel (operation.apply newest value)))
      rcases bank.push_cases channel (operation.apply newest value) with
        ⟨pushed, hpush, hroom, -, -⟩ | ⟨hpush, hroom⟩
      · rw [hpush, hroom, if_neg (by omega)]
        exact .success pushed #[]
      · rw [hpush, hroom, if_pos Nat.one_pos]
        exact .failure _ rfl

/-- Leaving fails without a status. -/
theorem heeds_leave (bank : Bank) :
    Heeds (· = bank) (bank.underflow? .accumulator 1) bank.leave := by
  rw [leave]
  cases hpop : bank.pop .accumulator with
  | error fault =>
      obtain ⟨hempty, rfl⟩ := pop_eq_error_iff.mp hpop
      rw [underflow?_one_of_nil hempty]
      exact .failure _ rfl
  | ok taken =>
      obtain ⟨value, popped⟩ := taken
      rw [underflow?_one_of_cons (pop_eq_ok_iff.mp hpop).1]
      dsimp only
      split
      · exact .success popped #[]
      · exact .success popped _

/-- Transfers fail without a count, without enough entries and without enough room. -/
theorem heeds_transfer (bank : Bank) (device : Device) :
    Heeds (fun _ => True) ((Interrupt.transfer device).objection? bank)
      (bank.transfer device.channel) := by
  rw [Interrupt.objection?]
  cases hcount : (bank.stack .accumulator).entries with
  | nil =>
      rw [transfer_of_empty device hcount, underflow?_one_of_nil hcount]
      exact .failure _ trivial
  | cons count below =>
      obtain ⟨moved, rounds, left, result, htransfer⟩ := exists_transfers device hcount
      have hending := htransfer.ending
      rw [htransfer.transfer_eq, underflow?_one_of_cons hcount, newest_of_entries hcount,
        underflow?, overflow?]
      cases hending with
      | complete havailable hroom =>
          rw [if_neg (Nat.not_lt.mpr havailable), if_neg (Nat.not_lt.mpr hroom), ite_self]
          exact .success left #[]
      | underflow hwanted hroom =>
          rw [if_pos hroom, if_pos hwanted]
          exact .failure _ trivial
      | overflow hwanted havailable =>
          rw [if_neg (Nat.not_le.mpr havailable), if_pos hwanted]
          exact .failure _ trivial

end Bank

/-- Actions fail for want of entries and for want of room. -/
theorem Action.heeds_perform (action : Action) (bank : Bank) :
    Heeds (action.Leaves bank) (action.objection? bank) (action.perform bank) := by
  cases action with
  | push channel values => exact bank.heeds_pushAll channel values
  | combine operation channel value => exact bank.heeds_combine operation channel value
  | interrupt code =>
      rw [perform, Bank.interrupt, objection?]
      cases hservice : Interrupt.ofCode? code with
      | none => exact .success bank _
      | some service =>
          have hcode : service.code = code := Interrupt.ofCode?_eq_some_iff.mp hservice
          cases service with
          | exit => exact bank.heeds_leave.mono fun _ hleft _ => hleft
          | transfer device =>
              exact (bank.heeds_transfer device).mono fun _ _ hother =>
                absurd hcode.symm (hother device)
          | flush => exact .success _ _

/-- What is objected to taking entries is an empty stack. -/
theorem Bank.code_of_underflow? {bank : Bank} {channel : Channel} {count : Nat} {fault : Fault}
    (h : bank.underflow? channel count = some fault) : fault.code = .stackUnderflow := by
  obtain ⟨-, hfault⟩ := Option.ite_none_right_eq_some.mp h
  rw [← Option.some.inj hfault, Fault.code]

/-- What is objected to putting entries is a full stack. -/
theorem Bank.code_of_overflow? {bank : Bank} {channel : Channel} {count : Nat} {fault : Fault}
    (h : bank.overflow? channel count = some fault) : fault.code = .stackOverflow := by
  obtain ⟨-, hfault⟩ := Option.ite_none_right_eq_some.mp h
  rw [← Option.some.inj hfault, Fault.code]

/-- What channels object to an action is an empty or a full stack. -/
theorem Action.code_of_objection? {action : Action} {bank : Bank} {fault : Fault}
    (h : action.objection? bank = some fault) :
    fault.code = .stackUnderflow ∨ fault.code = .stackOverflow := by
  cases action with
  | push channel values => exact .inr (Bank.code_of_overflow? h)
  | combine operation channel value =>
      rcases (Option.orElse_eq_some ..).mp h with hunderflow | ⟨-, hoverflow⟩
      · exact .inl (Bank.code_of_underflow? hunderflow)
      · exact .inr (Bank.code_of_overflow? hoverflow)
  | interrupt code =>
      obtain ⟨service, -, hservice⟩ := Option.bind_eq_some_iff.mp h
      cases service with
      | exit => exact .inl (Bank.code_of_underflow? hservice)
      | transfer device =>
          rcases (Option.orElse_eq_some ..).mp hservice with hunderflow | ⟨-, hmove⟩
          · exact .inl (Bank.code_of_underflow? hunderflow)
          · split at hmove
            · exact .inl (Bank.code_of_underflow? hmove)
            · exact .inr (Bank.code_of_overflow? hmove)
      | flush => cases hservice

end ChannelAsm
