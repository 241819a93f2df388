import ChannelAsm.Proofs.Machine.Objection
import ChannelAsm.Proofs.Machine.Reading
import ChannelAsm.Proofs.Outcome

/-!
# Lines that push one value each

`Program.Pushing` says of a list of lines that each puts one value on the same channel. What a line
pushes may depend on what the channel holds by then. By `Program.Pushing.ends` such lines fill the
channel: they succeed one after the other as long as there is room, and the first for which there is
none fails and changes nothing.
-/

namespace ChannelAsm.Program

/-- From a bank with these entries on the channel the line is recorded and pushes the value. -/
def Pushes (program : Program) (channel : Channel) (entries : List Int32) (line : Line)
    (value : Int32) : Prop :=
  ∀ bank : Bank, (bank.stack channel).entries = entries → program.step line bank =
    (Outcome.reporting bank #[.record (.executed line.text)]).andThen fun bank =>
      .ofExcept bank (bank.push channel value)

/-- `Pushing program channel entries lines values` says that each of the lines pushes one of the
values, the first on these entries and every other on what the lines before have left. -/
inductive Pushing (program : Program) (channel : Channel) :
    List Int32 → List Line → List Int32 → Prop where
  | nil (entries : List Int32) : Pushing program channel entries [] []
  | cons {entries values : List Int32} {value : Int32} {line : Line} {lines : List Line} :
      program.Pushes channel entries line value →
      Pushing program channel (value :: entries) lines values →
      Pushing program channel entries (line :: lines) (value :: values)

/-- What carrying out lines leaves that push these values: the channel is filled with them, and the
line that finds it full fails. -/
structure Pushed (program : Program) (channel : Channel) (lines : List Line) (values : List Int32)
    (bank : Bank) (reports : Array Report) (left : Bank) : Prop where
  filled : bank.Filled channel values left
  chain : values.length ≤ bank.room channel → Outcome.Chain program.step lines bank reports left
  breaks : bank.room channel < values.length →
    ∃ line, Outcome.Break program.step lines bank (bank.room channel) line reports left
      (.stackOverflow channel.mnemonic)

variable {program : Program} {channel : Channel} {entries values : List Int32} {value : Int32}
  {line : Line} {lines : List Line} {bank pushed : Bank}

/-- A line pushes its value where there is room. -/
theorem Pushes.step_of_ok (h : program.Pushes channel entries line value)
    (hentries : (bank.stack channel).entries = entries)
    (hpush : bank.push channel value = .ok pushed) :
    program.step line bank = ⟨pushed, #[.record (.executed line.text)], .ok ()⟩ := by
  rw [h bank hentries, Outcome.reporting, Outcome.ok_andThen, hpush]
  rfl

/-- A line changes nothing where there is no room. -/
theorem Pushes.step_of_error (h : program.Pushes channel entries line value)
    (hentries : (bank.stack channel).entries = entries) {fault : Fault}
    (hpush : bank.push channel value = .error fault) :
    program.step line bank = ⟨bank, #[.record (.executed line.text)], .error fault⟩ := by
  rw [h bank hentries, Outcome.reporting, Outcome.ok_andThen, hpush]
  rfl

/-- Lines push as many values as there are lines. -/
theorem Pushing.length_eq (h : program.Pushing channel entries lines values) :
    values.length = lines.length := by
  induction h with
  | nil => rfl
  | cons _ _ ih => rw [List.length_cons, List.length_cons, ih]

/-- Lines that push one value each fill the channel. -/
theorem Pushing.ends (h : program.Pushing channel entries lines values)
    (hentries : (bank.stack channel).entries = entries) :
    ∃ reports left, program.Pushed channel lines values bank reports left := by
  induction h generalizing bank with
  | nil entries =>
      refine ⟨#[], bank, ⟨?_, fun _ _ => rfl⟩, fun _ => .nil bank, fun hroom => ?_⟩
      · rw [List.take_nil, List.append_nil]
      · exact absurd hroom (Nat.not_lt_zero _)
  | @cons entries values value line lines hline hlines ih =>
      rcases bank.push_cases channel value with
        ⟨pushed, hpush, hroom, hpushed, hothers⟩ | ⟨hpush, hroom⟩
      · obtain ⟨-, hentriesPushed, -⟩ := Bank.push_eq_ok_iff.mp hpush
        rw [hentries] at hentriesPushed
        obtain ⟨reports, left, hfilled, hchain, hbreaks⟩ := ih hentriesPushed
        have hstep := hline.step_of_ok hentries hpush
        refine ⟨#[.record (.executed line.text)] ++ reports, left,
          ⟨?_, fun other hother => ?_⟩, fun hle => ?_, fun hlt => ?_⟩
        · rw [hfilled.toList_channel, hpushed, hroom, List.take_succ_cons, List.append_assoc]
          rfl
        · rw [hfilled.stack_eq other hother, hothers other hother]
        · rw [List.length_cons] at hle
          exact .cons hstep (hchain (by omega))
        · rw [List.length_cons] at hlt
          obtain ⟨last, hbreak⟩ := hbreaks (by omega)
          rw [hroom]
          exact ⟨last, .cons hstep hbreak⟩
      · refine ⟨#[.record (.executed line.text)], bank, ⟨?_, fun _ _ => rfl⟩, fun hle => ?_,
          fun _ => ?_⟩
        · rw [hroom, List.take_zero, List.append_nil]
        · rw [hroom, List.length_cons] at hle
          exact absurd hle (Nat.not_succ_le_zero _)
        · rw [hroom]
          exact ⟨line, .head (hline.step_of_error hentries hpush)⟩

/-- Lines that push one value each end like pushing the values at once, and leave the same. -/
theorem Pushed.sequence_eq {reports : Array Report} {left : Bank}
    (h : program.Pushed channel lines values bank reports left) :
    let pushing := bank.pushAll channel values
    Outcome.sequence program.step lines bank = ⟨pushing.state, reports, pushing.result⟩ := by
  obtain ⟨reached, hpush, htoList, hothers⟩ := bank.exists_pushAll_eq channel values
  have hsame : left = reached := by
    ext other : 1
    by_cases hother : channel = other
    · rw [← hother]
      refine Stack.ext (List.reverse_injective ?_)
      exact h.filled.toList_channel.trans htoList.symm
    · rw [h.filled.stack_eq other hother, hothers other hother]
  subst hsame
  rw [hpush]
  dsimp only
  split
  · exact (h.chain ‹_›).sequence_eq
  · obtain ⟨line, hbreak⟩ := h.breaks (by omega)
    exact hbreak.sequence_eq

/-- A stack with room for one more entry, its newest entry being the greatest cell. -/
def tallStack : Stack where
  entries := List.replicate 65533 2147483647 ++ [0]
  size := 65534
  size_eq := by rw [List.length_append, List.length_replicate, List.length_singleton]

end ChannelAsm.Program
