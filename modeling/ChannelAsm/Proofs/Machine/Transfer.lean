import ChannelAsm.Proofs.Machine.Rounds

/-!
# Moving entries between channels

Values that are pushed one by one, or moved one by one from the data channel, come to lie on a
channel in reverse order. `Bank.exists_pushAll_eq` says that as many values are pushed as have room.
`Bank.pushAll_of_le` and `Bank.transfer_of_le` say what is left when there is room for all, and that
no other channel is touched.
-/

namespace ChannelAsm.Bank

variable {bank : Bank} {channel target : Channel} {values below rest : List Int32} {count : Int32}

/-- A push takes up room, or there is none. -/
theorem push_cases (bank : Bank) (channel : Channel) (value : Int32) :
    (∃ pushed, bank.push channel value = .ok pushed ∧ bank.room channel = pushed.room channel + 1 ∧
      (pushed.stack channel).toList = (bank.stack channel).toList ++ [value] ∧
      ∀ other, channel ≠ other → pushed.stack other = bank.stack other) ∨
    (bank.push channel value = .error (.stackOverflow channel.mnemonic) ∧
      bank.room channel = 0) := by
  cases hpush : bank.push channel value with
  | error fault =>
      obtain ⟨hfull, rfl⟩ := push_eq_error_iff.mp hpush
      exact .inr ⟨rfl, Nat.sub_eq_zero_of_le hfull⟩
  | ok pushed =>
      obtain ⟨hheight, hentries, hothers⟩ := push_eq_ok_iff.mp hpush
      refine .inl ⟨pushed, rfl, ?_, ?_, hothers⟩
      · rw [room, room, hentries, List.length_cons]
        omega
      · rw [Stack.toList, hentries, List.reverse_cons]
        rfl

/-- Pushing values in order puts as many on the channel as have room, and fails when these are not
all. -/
theorem exists_pushAll_eq (channel : Channel) (values : List Int32) (bank : Bank) :
    ∃ left, bank.pushAll channel values = ⟨left, #[], if values.length ≤ bank.room channel
        then .ok () else .error (.stackOverflow channel.mnemonic)⟩ ∧
      (left.stack channel).toList =
        (bank.stack channel).toList ++ values.take (bank.room channel) ∧
      ∀ other, channel ≠ other → left.stack other = bank.stack other := by
  induction values generalizing bank with
  | nil => exact ⟨bank, rfl, by rw [List.take_nil, List.append_nil], fun _ _ => rfl⟩
  | cons value values ih =>
      rw [pushAll, Outcome.sequence_cons, List.length_cons]
      rcases bank.push_cases channel value with
        ⟨pushed, hpush, hroom, hpushed, hothers⟩ | ⟨hpush, hroom⟩
      · obtain ⟨left, hleft, htarget, hkept⟩ := ih pushed
        refine ⟨left, ?_, ?_, fun other hother => (hkept other hother).trans (hothers other hother)⟩
        · simp only [hpush, hroom, Nat.add_le_add_iff_right]
          rw [← hleft]
          exact Outcome.done_andThen ..
        · rw [htarget, hpushed, hroom, List.take_succ_cons, List.append_assoc]
          rfl
      · refine ⟨bank, ?_, ?_, fun _ _ => rfl⟩
        · rw [hpush, hroom, if_neg (Nat.not_succ_le_zero _)]
          rfl
        · rw [hroom, List.take_zero, List.append_nil]

/-- Values for which there is room are all pushed. -/
theorem pushAll_of_le
    (hroom : (bank.stack channel).entries.length + values.length ≤ Stack.limit) :
    ∃ pushed, bank.pushAll channel values = .done pushed ∧
      (pushed.stack channel).entries = values.reverse ++ (bank.stack channel).entries ∧
      ∀ other, channel ≠ other → pushed.stack other = bank.stack other := by
  have hle : values.length ≤ bank.room channel := by
    unfold room
    omega
  obtain ⟨pushed, hpush, hpushed, hothers⟩ := bank.exists_pushAll_eq channel values
  rw [if_pos hle] at hpush
  refine ⟨pushed, hpush, ?_, hothers⟩
  rw [List.take_of_length_le hle] at hpushed
  simpa [Stack.toList] using congrArg List.reverse hpushed

/-- Entries for which there is room are all moved, the newest first. -/
theorem move_of_le (htarget : target ≠ .data)
    (hdata : (bank.stack .data).entries = values ++ rest)
    (hroom : (bank.stack target).entries.length + values.length ≤ Stack.limit) :
    ∃ moved, bank.move target values.length = .done moved ∧
      (moved.stack .data).entries = rest ∧
      (moved.stack target).entries = values.reverse ++ (bank.stack target).entries ∧
      ∀ other, other ≠ .data → other ≠ target → moved.stack other = bank.stack other := by
  obtain ⟨rounds, hrounds⟩ := exists_rounds target values.length bank
  obtain ⟨hreports, number, hending, hmoved, hleft, hothers⟩ := hrounds.ends htarget
  have hall : number = values.length := by
    rw [hending.moved_eq, hdata, List.length_append, room]
    omega
  rw [hending.rounds_eq hall, hall, hdata, List.drop_left] at hleft
  rw [hall, hdata, List.take_left] at hmoved
  refine ⟨_, ?_, hleft, ?_, hothers⟩
  · rcases hmove : bank.move target values.length with ⟨moved, reports, result⟩
    rw [hmove] at hreports hending
    obtain rfl : result = .ok () := hending.result_eq_ok_iff.mpr hall
    obtain rfl : reports = #[] := hreports
    rfl
  · simpa [Stack.toList] using congrArg List.reverse hmoved

/-- A transfer of as many entries as the accumulator says moves them when there is room. -/
theorem transfer_of_le (htarget : target ≠ .data) (haccumulator : target ≠ .accumulator)
    (hcount : (bank.stack .accumulator).entries = count :: below)
    (hvalues : count.toInt.toNat = values.length)
    (hdata : (bank.stack .data).entries = values ++ rest)
    (hroom : (bank.stack target).entries.length + values.length ≤ Stack.limit) :
    ∃ moved, bank.transfer target = .done moved ∧
      (moved.stack .accumulator).entries = below ∧ (moved.stack .data).entries = rest ∧
      (moved.stack target).entries = values.reverse ++ (bank.stack target).entries ∧
      ∀ other, other ≠ .accumulator → other ≠ .data → other ≠ target →
        moved.stack other = bank.stack other := by
  obtain ⟨popped, hpop, hleft⟩ := exists_pop_of_entries hcount
  obtain ⟨_, hkept⟩ := pop_eq_ok_iff.mp hpop
  have hsame := hkept target haccumulator.symm
  obtain ⟨moved, hmove, hmovedData, hmoved, hothers⟩ :=
    @move_of_le popped target values rest htarget
      (by rw [hkept .data (by decide)]; exact hdata) (by rw [hsame]; exact hroom)
  refine ⟨moved, ?_, ?_, hmovedData, by rw [hmoved, hsame], fun other hother hdata htarget => ?_⟩
  · rw [transfer, hpop]
    dsimp only
    rw [hvalues]
    exact hmove
  · rw [hothers .accumulator (by decide) haccumulator.symm]
    exact hleft
  · rw [hothers other hdata htarget, hkept other hother.symm]

end ChannelAsm.Bank
