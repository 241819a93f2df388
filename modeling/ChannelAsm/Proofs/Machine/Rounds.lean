import ChannelAsm.Machine.Service
import ChannelAsm.Proofs.Machine.Bank

/-!
# How a transfer ends

Entries are moved in rounds. Each round takes the newest entry off the data channel and puts it on
the target, and a round that cannot do so is the last. `Bank.Rounds` counts the rounds that are
begun, and `Bank.Ending` lists the three ways in which they end: enough entries have been moved, the
data channel has run out, or the target is full. By `Bank.Rounds.ends` nothing but the two heights
and the number that is asked for decides which it is, and `Bank.interrupt_transfer` says what a
transfer leaves and returns in every case.
-/

namespace ChannelAsm.Bank

/-- The number of entries for which a channel has room. -/
def room (bank : Bank) (channel : Channel) : Nat :=
  Stack.limit - (bank.stack channel).entries.length

/-- `Rounds target wanted bank rounds outcome` says that moving so many entries to the target begins
so many rounds and has the outcome. -/
inductive Rounds (target : Channel) : Nat → Bank → Nat → Outcome Bank Report Fault → Prop where
  /-- No entry is wanted any more. -/
  | enough (bank : Bank) : Rounds target 0 bank 0 (.done bank)
  /-- There is no entry to take. -/
  | empty {wanted : Nat} {bank : Bank} {fault : Fault} (hpop : bank.pop .data = .error fault) :
      Rounds target (wanted + 1) bank 1 (.fail bank fault)
  /-- An entry is taken, and there is no room for it. -/
  | full {wanted : Nat} {bank popped : Bank} {value : Int32} {fault : Fault}
      (hpop : bank.pop .data = .ok (value, popped))
      (hpush : popped.push target value = .error fault) :
      Rounds target (wanted + 1) bank 1 (.fail popped fault)
  /-- An entry is moved, and the others after it. -/
  | next {wanted rounds : Nat} {bank popped pushed : Bank} {value : Int32}
      {outcome : Outcome Bank Report Fault} (hpop : bank.pop .data = .ok (value, popped))
      (hpush : popped.push target value = .ok pushed)
      (hrest : Rounds target wanted pushed rounds outcome) :
      Rounds target (wanted + 1) bank (rounds + 1) outcome

/-- `Ending target wanted available room moved rounds result` says that, of the entries that are
wanted, so many are moved when so many are there and have room, and that this takes so many rounds
and has the result. -/
inductive Ending (target : Channel) (wanted available room : Nat) :
    Nat → Nat → Except Fault Unit → Prop where
  | complete : wanted ≤ available → wanted ≤ room →
      Ending target wanted available room wanted wanted (.ok ())
  | underflow : available < wanted → available ≤ room →
      Ending target wanted available room available (available + 1)
        (.error (.stackUnderflow Channel.data.mnemonic))
  | overflow : room < wanted → room < available →
      Ending target wanted available room room (room + 1)
        (.error (.stackOverflow target.mnemonic))

/-- The bank that is left when entries are moved to the target in so many rounds. A round that is
begun has taken its entry, whether the entry arrives or not. -/
structure Shifts (target : Channel) (bank : Bank) (moved rounds : Nat) (left : Bank) : Prop where
  toList_target : (left.stack target).toList =
    (bank.stack target).toList ++ (bank.stack .data).entries.take moved
  entries_data : (left.stack .data).entries = (bank.stack .data).entries.drop rounds
  stack_eq : ∀ other, other ≠ .data → other ≠ target → left.stack other = bank.stack other

variable {target : Channel} {wanted available room moved rounds : Nat}
  {result : Except Fault Unit} {bank left : Bank} {outcome : Outcome Bank Report Fault}

/-! ## Rounds -/

/-- Moving entries is done in rounds. -/
theorem exists_rounds (target : Channel) (wanted : Nat) (bank : Bank) :
    ∃ rounds, Rounds target wanted bank rounds (bank.move target wanted) := by
  induction wanted generalizing bank with
  | zero => exact ⟨0, .enough bank⟩
  | succ wanted ih =>
      rw [move]
      cases hpop : bank.pop .data with
      | error fault => exact ⟨1, .empty hpop⟩
      | ok taken =>
          obtain ⟨value, popped⟩ := taken
          dsimp only
          cases hpush : popped.push target value with
          | error fault => exact ⟨1, .full hpop hpush⟩
          | ok pushed =>
              obtain ⟨rounds, hrest⟩ := ih pushed
              exact ⟨rounds + 1, .next hpop hpush hrest⟩

/-- One more entry that is wanted, is there and has room is moved in one more round. -/
theorem Ending.succ (h : Ending target wanted available room moved rounds result) :
    Ending target (wanted + 1) (available + 1) (room + 1) (moved + 1) (rounds + 1) result := by
  cases h with
  | complete havailable hroom =>
      exact .complete (Nat.succ_le_succ havailable) (Nat.succ_le_succ hroom)
  | underflow hwanted hroom => exact .underflow (Nat.succ_lt_succ hwanted) (Nat.succ_le_succ hroom)
  | overflow hwanted havailable =>
      exact .overflow (Nat.succ_lt_succ hwanted) (Nat.succ_lt_succ havailable)

/-- As many entries are moved as are wanted, are there and have room. -/
theorem Ending.moved_eq (h : Ending target wanted available room moved rounds result) :
    moved = min wanted (min available room) := by
  cases h <;> omega

/-- Every entry that is moved takes a round. -/
theorem Ending.moved_le (h : Ending target wanted available room moved rounds result) :
    moved ≤ rounds := by
  cases h <;> omega

/-- At most one round is begun without moving an entry. -/
theorem Ending.rounds_le (h : Ending target wanted available room moved rounds result) :
    rounds ≤ moved + 1 := by
  cases h <;> omega

/-- Moving succeeds when all entries that are wanted are moved. -/
theorem Ending.result_eq_ok_iff (h : Ending target wanted available room moved rounds result) :
    result = .ok () ↔ moved = wanted := by
  cases h with
  | complete => exact ⟨fun _ => rfl, fun _ => rfl⟩
  | underflow hwanted =>
      constructor
      · intro hresult
        cases hresult
      · intro hall
        omega
  | overflow hwanted =>
      constructor
      · intro hresult
        cases hresult
      · intro hall
        omega

/-- When all entries that are wanted are moved, each round has moved one. -/
theorem Ending.rounds_eq (h : Ending target wanted available room moved rounds result)
    (hall : moved = wanted) : rounds = moved := by
  cases h with
  | complete => rfl
  | underflow => omega
  | overflow => omega

/-- When fewer entries are moved than are wanted and all of them have room, none is left. -/
theorem Ending.underflow_of_le (h : Ending target wanted available room moved rounds result)
    (hsome : moved ≠ wanted) (hroom : available ≤ room) :
    result = .error (.stackUnderflow Channel.data.mnemonic) ∧ available ≤ rounds := by
  cases h with
  | complete => exact absurd rfl hsome
  | underflow => exact ⟨rfl, Nat.le_succ _⟩
  | overflow => omega

/-- When fewer entries are moved than are wanted and not all of them have room, the first without
room is taken and not moved. -/
theorem Ending.overflow_of_lt (h : Ending target wanted available room moved rounds result)
    (hsome : moved ≠ wanted) (hroom : room < available) :
    result = .error (.stackOverflow target.mnemonic) ∧ rounds = moved + 1 := by
  cases h with
  | complete => exact absurd rfl hsome
  | underflow => omega
  | overflow => exact ⟨rfl, rfl⟩

/-- How moving entries ends is decided by how many are wanted, how many are there and for how many
there is room. -/
theorem Rounds.ends (htarget : target ≠ .data)
    (h : Rounds target wanted bank rounds outcome) :
    outcome.reports = #[] ∧ ∃ moved,
      Ending target wanted (bank.stack .data).entries.length (bank.room target) moved rounds
        outcome.result ∧
      Shifts target bank moved rounds outcome.state := by
  induction h with
  | enough bank =>
      exact ⟨rfl, 0, .complete (Nat.zero_le _) (Nat.zero_le _),
        ⟨(List.append_nil _).symm, rfl, fun _ _ _ => rfl⟩⟩
  | @empty wanted bank fault hpop =>
      obtain ⟨hempty, rfl⟩ := pop_eq_error_iff.mp hpop
      rw [hempty]
      refine ⟨rfl, 0, .underflow (Nat.succ_pos wanted) (Nat.zero_le _), ⟨?_, ?_, fun _ _ _ => rfl⟩⟩
      · rw [hempty]
        exact (List.append_nil _).symm
      · rw [hempty]
        exact hempty
  | @full wanted bank popped value fault hpop hpush =>
      obtain ⟨hentries, hkept⟩ := pop_eq_ok_iff.mp hpop
      obtain ⟨hheight, rfl⟩ := push_eq_error_iff.mp hpush
      rw [hkept target htarget.symm] at hheight
      have hroom : bank.room target = 0 := Nat.sub_eq_zero_of_le hheight
      rw [hroom, hentries]
      refine ⟨rfl, 0, .overflow (Nat.succ_pos wanted) (Nat.succ_pos _), ⟨?_, ?_, ?_⟩⟩
      · exact (congrArg Stack.toList (hkept target htarget.symm)).trans (List.append_nil _).symm
      · rw [hentries]
        rfl
      · exact fun other hdata _ => hkept other hdata.symm
  | @next wanted rounds bank popped pushed value outcome hpop hpush _ ih =>
      obtain ⟨hentries, hkept⟩ := pop_eq_ok_iff.mp hpop
      obtain ⟨hheight, hpushed, hothers⟩ := push_eq_ok_iff.mp hpush
      have hdata : (pushed.stack .data).entries = (popped.stack .data).entries := by
        rw [hothers .data htarget]
      rw [hkept target htarget.symm] at hheight hpushed
      have hroom : bank.room target = pushed.room target + 1 := by
        rw [Bank.room, Bank.room, hpushed, List.length_cons]
        omega
      obtain ⟨hreports, moved, hending, hshifts⟩ := ih
      rw [hdata] at hending
      refine ⟨hreports, moved + 1, ?_, ⟨?_, ?_, fun other hother htarget => ?_⟩⟩
      · rw [hentries, hroom]
        exact hending.succ
      · rw [hshifts.toList_target, Stack.toList, hpushed, hdata, hentries, List.reverse_cons,
          List.append_assoc]
        rfl
      · rw [hshifts.entries_data, hdata, hentries]
        rfl
      · rw [hshifts.stack_eq other hother htarget, hothers other htarget.symm,
          hkept other hother.symm]

/-! ## Transfers -/

/-- The service with the code of a transfer is that transfer. -/
theorem interrupt_transfer_eq (bank : Bank) (device : Device) :
    bank.interrupt (Interrupt.transfer device).code = bank.transfer device.channel := by
  rw [interrupt, Interrupt.ofCode?_eq_some_iff.mpr rfl]
  rfl

/-- Without a count a transfer does nothing. -/
theorem transfer_of_empty (device : Device) (h : (bank.stack .accumulator).entries = []) :
    bank.transfer device.channel = .fail bank (.stackUnderflow Channel.accumulator.mnemonic) := by
  rw [transfer, pop_eq_error_iff.mpr ⟨h, rfl⟩]

/-- What a transfer leaves and returns whose count stands above other entries: so many entries are
moved, in so many rounds behind the pop of the count. -/
structure Transfers (device : Device) (bank : Bank) (count : Int32) (below : List Int32)
    (moved rounds : Nat) (left : Bank) (result : Except Fault Unit) : Prop where
  transfer_eq : bank.transfer device.channel = ⟨left, #[], result⟩
  exists_rounds : ∃ popped, bank.pop .accumulator = .ok (count, popped) ∧
    Rounds device.channel count.toInt.toNat popped rounds ⟨left, #[], result⟩
  ending : Ending device.channel count.toInt.toNat (bank.stack .data).entries.length
    (bank.room device.channel) moved rounds result
  entries_accumulator : (left.stack .accumulator).entries = below
  toList_target : (left.stack device.channel).toList =
    (bank.stack device.channel).toList ++ (bank.stack .data).entries.take moved
  entries_data : (left.stack .data).entries = (bank.stack .data).entries.drop rounds
  stack_eq : ∀ other, other ≠ .accumulator → other ≠ .data → other ≠ device.channel →
    left.stack other = bank.stack other

/-- A transfer with a count moves entries. -/
theorem exists_transfers (device : Device) {count : Int32} {below : List Int32}
    (h : (bank.stack .accumulator).entries = count :: below) :
    ∃ moved rounds left result, Transfers device bank count below moved rounds left result := by
  have haccumulator : device.channel ≠ .accumulator := by cases device <;> decide
  have hdata : device.channel ≠ .data := by cases device <;> decide
  obtain ⟨popped, hpop, hbelow⟩ := exists_pop_of_entries h
  obtain ⟨_, hkept⟩ := pop_eq_ok_iff.mp hpop
  have htransfer : bank.transfer device.channel =
      popped.move device.channel count.toInt.toNat := by
    rw [transfer, hpop]
  obtain ⟨rounds, hrounds⟩ := exists_rounds device.channel count.toInt.toNat popped
  obtain ⟨hreports, moved, hending, htarget, hentries, hothers⟩ := hrounds.ends hdata
  rcases hmove : popped.move device.channel count.toInt.toNat with ⟨left, reports, result⟩
  rw [hmove] at htransfer hrounds hreports hending htarget hentries hothers
  obtain rfl : reports = #[] := hreports
  -- The count is no part of what is moved, so its pop can be left out of account.
  have hroom : popped.room device.channel = bank.room device.channel := by
    rw [room, room, hkept _ haccumulator.symm]
  rw [hkept .data (by decide)] at hending htarget hentries
  rw [hkept _ haccumulator.symm] at htarget
  rw [hroom] at hending
  refine ⟨moved, rounds, left, result, htransfer, ⟨popped, hpop, hrounds⟩, hending, ?_, htarget,
    hentries, fun other hother hdata htarget => ?_⟩
  · rw [hothers .accumulator (by decide) haccumulator.symm]
    exact hbelow
  · rw [hothers other hdata htarget, hkept other hother.symm]

/-- What the interrupt of a transfer does. Without an entry on the accumulator it fails and does
nothing. Otherwise the accumulator loses its newest entry, the count, and as many entries are moved
as the count says, a negative one being none, as the data channel has, and for which the target has
room. They come to lie on the target in the order in which they are taken, and no further channel is
touched. The interrupt succeeds when these are as many as the count says, and has then taken no
other entry off the data channel; if not, it names the data channel when that runs out first, and
the target when that is full first. It enters its loop at most once more than it moves an entry. -/
theorem interrupt_transfer (bank : Bank) (device : Device) :
    match (bank.stack .accumulator).entries with
    | [] => bank.interrupt (Interrupt.transfer device).code =
        ⟨bank, #[], .error (.stackUnderflow "eax")⟩
    | count :: below =>
        let target := device.channel
        let data := (bank.stack .data).entries
        let room := 65535 - (bank.stack target).entries.length
        let wanted := (max count.toInt 0).toNat
        let moved := min wanted (min data.length room)
        ∃ left result,
          bank.interrupt (Interrupt.transfer device).code = ⟨left, #[], result⟩ ∧
          (left.stack .accumulator).entries = below ∧
          (left.stack target).toList = (bank.stack target).toList ++ data.take moved ∧
          (∀ other, other ≠ .accumulator → other ≠ .data → other ≠ target →
            left.stack other = bank.stack other) ∧
          (result = .ok () ↔ moved = wanted) ∧
          (moved = wanted → (left.stack .data).entries = data.drop moved) ∧
          (moved ≠ wanted → data.length ≤ room →
            result = .error (.stackUnderflow "ebx") ∧ (left.stack .data).entries = []) ∧
          (moved ≠ wanted → room < data.length →
            result = .error (.stackOverflow target.mnemonic)) ∧
          ∃ popped rounds, bank.pop .accumulator = .ok (count, popped) ∧
            Rounds target wanted popped rounds ⟨left, #[], result⟩ ∧ rounds ≤ moved + 1 := by
  rw [interrupt_transfer_eq]
  split
  · rename_i hempty
    exact transfer_of_empty device hempty
  · rename_i count below hcount
    intro target data room wanted moved
    obtain ⟨number, rounds, left, result, htransfer⟩ := exists_transfers device hcount
    have hwanted : count.toInt.toNat = wanted := by
      show count.toInt.toNat = (max count.toInt 0).toNat
      omega
    obtain ⟨htransfer, ⟨popped, hpop, hrounds⟩, hending, hbelow, htarget, hdata, hothers⟩ :=
      htransfer
    rw [hwanted] at hrounds hending
    obtain rfl : number = moved := hending.moved_eq
    refine ⟨left, result, htransfer, hbelow, htarget, hothers, hending.result_eq_ok_iff,
      fun hall => ?_, fun hsome hroom => ?_, fun hsome hroom => ?_,
      popped, rounds, hpop, hrounds, hending.rounds_le⟩
    · rw [hdata, hending.rounds_eq hall]
    · obtain ⟨hresult, hrounds⟩ := hending.underflow_of_le hsome hroom
      exact ⟨hresult, hdata.trans (List.drop_eq_nil_of_le hrounds)⟩
    · exact (hending.overflow_of_lt hsome hroom).1

end ChannelAsm.Bank
