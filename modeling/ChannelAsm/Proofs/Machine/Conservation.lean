import ChannelAsm.Proofs.Machine.Rounds

/-!
# Entries lost in a transfer

A transfer takes an entry off the data channel before it finds out whether the target has room for
it. `Bank.Transfers.balance` accounts for every entry of the data channel: it is still there, it has
been moved, or it is the one that found the target full. Hence `Bank.conserves_iff`: a transfer
moves entries without losing any exactly when it does not end in an overflow, and an overflow loses
one.
-/

namespace ChannelAsm.Bank

/-- `Conserves target bank left` says that entries have only been moved: the target has kept what it
had, and what it has gained, put back in reverse, makes the data channel what it was. -/
def Conserves (target : Channel) (bank left : Bank) : Prop :=
  ∃ gained, (left.stack target).toList = (bank.stack target).toList ++ gained ∧
    (left.stack .data).toList ++ gained.reverse = (bank.stack .data).toList

variable {device : Device} {bank left : Bank} {count : Int32} {below : List Int32}
  {moved rounds : Nat} {result : Except Fault Unit}

/-- The entries that a transfer takes and does not move. -/
def lost (bank : Bank) (moved rounds : Nat) : List Int32 :=
  ((bank.stack .data).entries.drop moved).take (rounds - moved)

/-- Every entry that was on the data channel is left there, or is lost, or has been moved. -/
theorem Transfers.balance (h : Transfers device bank count below moved rounds left result) :
    (left.stack .data).toList ++ (bank.lost moved rounds).reverse ++
      ((bank.stack .data).entries.take moved).reverse = (bank.stack .data).toList := by
  have hle : moved ≤ rounds := h.ending.moved_le
  have hleft : (left.stack .data).entries =
      ((bank.stack .data).entries.drop moved).drop (rounds - moved) := by
    rw [h.entries_data, List.drop_drop, Nat.add_sub_cancel' hle]
  rw [Stack.toList, Stack.toList, hleft, lost, ← List.reverse_append, List.take_append_drop,
    ← List.reverse_append, List.take_append_drop]

/-- Only an overflow loses entries. -/
theorem Transfers.lost_eq_nil (h : Transfers device bank count below moved rounds left result)
    (hresult : result ≠ .error (.stackOverflow device.channel.mnemonic)) :
    bank.lost moved rounds = [] := by
  obtain ⟨_, _, hending, _⟩ := h
  unfold lost
  cases hending with
  | complete => rw [Nat.sub_self, List.take_zero]
  | underflow => rw [List.drop_length, List.take_nil]
  | overflow => exact absurd rfl hresult

/-- An overflow loses one entry. -/
theorem Transfers.exists_lost (h : Transfers device bank count below moved rounds left result)
    (hresult : result = .error (.stackOverflow device.channel.mnemonic)) :
    ∃ value, bank.lost moved rounds = [value] := by
  obtain ⟨_, _, hending, _⟩ := h
  unfold lost
  cases hending with
  | complete => cases hresult
  | underflow => cases hresult
  | overflow _ havailable =>
      refine ⟨(bank.stack .data).entries[bank.room device.channel], ?_⟩
      rw [Nat.add_sub_cancel_left, List.drop_eq_getElem_cons havailable]
      rfl

/-- A transfer that ends in an overflow does not conserve the entries. -/
theorem Transfers.not_conserves (h : Transfers device bank count below moved rounds left result)
    (hresult : result = .error (.stackOverflow device.channel.mnemonic)) :
    ¬ Conserves device.channel bank left := by
  rintro ⟨gained, htarget, hdata⟩
  obtain ⟨value, hlost⟩ := h.exists_lost hresult
  obtain rfl : (bank.stack .data).entries.take moved = gained :=
    List.append_cancel_left (h.toList_target.symm.trans htarget)
  have hbalance := congrArg List.length (h.balance.trans hdata.symm)
  rw [hlost] at hbalance
  simp at hbalance

/-- A transfer that does not end in an overflow conserves the entries. -/
theorem Transfers.conserves (h : Transfers device bank count below moved rounds left result)
    (hresult : result ≠ .error (.stackOverflow device.channel.mnemonic)) :
    Conserves device.channel bank left := by
  refine ⟨_, h.toList_target, ?_⟩
  have hbalance := h.balance
  rw [h.lost_eq_nil hresult, List.reverse_nil, List.append_nil] at hbalance
  exact hbalance

/-- A transfer conserves the entries unless the target overflows. An overflow loses one entry: the
newest of those that have not been moved, which is on neither channel afterwards. -/
theorem conserves_iff (bank : Bank) (device : Device) :
    let outcome := bank.interrupt (Interrupt.transfer device).code
    let overflow : Fault := .stackOverflow device.channel.mnemonic
    (Conserves device.channel bank outcome.state ↔ outcome.result ≠ .error overflow) ∧
      (outcome.result = .error overflow → ∃ value gained,
        (outcome.state.stack device.channel).toList =
          (bank.stack device.channel).toList ++ gained ∧
        (outcome.state.stack .data).toList ++ value :: gained.reverse =
          (bank.stack .data).toList) := by
  rw [interrupt_transfer_eq]
  cases hcount : (bank.stack .accumulator).entries with
  | nil =>
      rw [transfer_of_empty device hcount]
      refine ⟨⟨fun _ hresult => ?_, fun _ => ⟨[], ?_, ?_⟩⟩, fun hresult => ?_⟩
      · cases hresult
      · exact (List.append_nil _).symm
      · exact List.append_nil _
      · cases hresult
  | cons count below =>
      obtain ⟨moved, rounds, left, result, htransfers⟩ := exists_transfers device hcount
      rw [htransfers.transfer_eq]
      refine ⟨⟨fun hconserves hresult => htransfers.not_conserves hresult hconserves,
        htransfers.conserves⟩, fun hresult => ?_⟩
      obtain ⟨value, hlost⟩ := htransfers.exists_lost hresult
      refine ⟨value, _, htransfers.toList_target, ?_⟩
      have hbalance := htransfers.balance
      rw [hlost, List.append_assoc] at hbalance
      exact hbalance

/-- A stack at the limit, with a zero at the bottom. -/
def crowded : Stack where
  entries := List.replicate 65534 1 ++ [0]
  size := Stack.limit
  size_eq := by
    rw [List.length_append, List.length_replicate]
    rfl

/-- A bank whose console has no room for the one entry that is to be moved there. -/
def crowdedConsole : Bank :=
  ((initial.set .console crowded).set .data ⟨[5, 0], 2, rfl⟩).set .accumulator ⟨[1, 0], 2, rfl⟩

/-- No channel of that bank is above the limit. -/
theorem length_crowdedConsole_le (channel : Channel) :
    (crowdedConsole.stack channel).entries.length ≤ 65535 := by
  have hheight : crowded.entries.length = 65535 := crowded.size_eq.symm
  cases channel <;> simp [crowdedConsole, Stack.singleton, hheight]

/-- The entry for which the console has no room is lost. -/
theorem not_conserves_crowdedConsole :
    (∀ channel, (crowdedConsole.stack channel).entries.length ≤ 65535) ∧
      ¬ Conserves .console crowdedConsole (crowdedConsole.interrupt 1).state := by
  refine ⟨length_crowdedConsole_le, ?_⟩
  have hroom : crowdedConsole.room .console = 0 := by
    have hconsole : crowdedConsole.stack .console = crowded := by simp [crowdedConsole]
    rw [room, hconsole, ← crowded.size_eq]
    exact Nat.sub_self Stack.limit
  obtain ⟨moved, rounds, left, result, htransfers⟩ :=
    @exists_transfers crowdedConsole .console 1 [0] rfl
  have hinterrupt : crowdedConsole.interrupt 1 = ⟨left, #[], result⟩ :=
    (crowdedConsole.interrupt_transfer_eq .console).trans htransfers.transfer_eq
  have hending : Ending .console 1 2 (crowdedConsole.room .console) moved rounds result :=
    htransfers.ending
  rw [hroom] at hending
  have hmoved := hending.moved_eq
  rw [hinterrupt]
  exact htransfers.not_conserves (hending.overflow_of_lt (by omega) (by omega)).1

end ChannelAsm.Bank
