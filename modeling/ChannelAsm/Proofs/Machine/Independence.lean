import ChannelAsm.Proofs.Dialogue
import ChannelAsm.Proofs.Machine.Bank

/-!
# Independence of the channels

`Pile.serve` is a bounded stack on its own: a list, the newest entry last. A channel of a bank
follows its pile in every operation (`Represents.follows`), and calls to other channels leave it
alone (`Represents.settle_other`). So a bank answers any interleaving of calls as nine separate
piles do, which is `log_operate_eq_piles`.
-/

namespace ChannelAsm

namespace Pile

/-- What is asked of a stack. -/
inductive Operation where
  | push (value : Int32)
  | pop
  | peek

/-- The answer to an operation: the entry that was taken or looked at, if any, or a fault. -/
abbrev Answer := Except Fault (Option Int32)

/-- A pile answers an operation. It holds up to 65535 entries, and keeps them all on a failure. -/
def serve (owner : String) : Operation → List Int32 → Answer × List Int32
  | .push value, pile =>
      if pile.length = 65535 then (.error (.stackOverflow owner), pile)
      else (.ok none, pile ++ [value])
  | .pop, pile =>
      match pile.getLast? with
      | some newest => (.ok (some newest), pile.dropLast)
      | none => (.error (.stackUnderflow owner), pile)
  | .peek, pile =>
      match pile.getLast? with
      | some newest => (.ok (some newest), pile)
      | none => (.error (.stackUnderflow owner), pile)

variable {owner : String} {below : List Int32} {newest : Int32}

/-- A pop takes the newest entry. -/
theorem serve_pop_concat : serve owner .pop (below ++ [newest]) = (.ok (some newest), below) := by
  rw [serve, List.getLast?_concat, List.dropLast_concat]

/-- A look gives the newest entry, which stays. -/
theorem serve_peek_concat :
    serve owner .peek (below ++ [newest]) = (.ok (some newest), below ++ [newest]) := by
  rw [serve, List.getLast?_concat]

end Pile

namespace Bank

open Dialogue
open Pile (Operation)

/-- An operation on a channel. -/
structure Call where
  channel : Channel
  operation : Operation

/-- What the call asks of the channel, if it is a call to that channel. -/
def Call.on (channel : Channel) (call : Call) : Option Operation :=
  if call.channel = channel then some call.operation else none

/-- A call asks of its own channel what it asks. -/
theorem Call.on_eq_some_iff {channel : Channel} {call : Call} {operation : Operation} :
    call.on channel = some operation ↔ call.channel = channel ∧ call.operation = operation := by
  rw [Call.on, Option.ite_none_right_eq_some, Option.some_inj]

/-- A call asks nothing of the other channels. -/
theorem Call.on_eq_none_iff {channel : Channel} {call : Call} :
    call.on channel = none ↔ call.channel ≠ channel := by
  rw [Call.on, ite_eq_right_iff, ne_eq]
  exact forall_congr' fun _ => iff_of_false (Option.some_ne_none _) id

/-- The entry that a call asks for, and the bank behind the call. -/
def operate : Call → Bank → Except Fault (Option Int32 × Bank)
  | ⟨channel, .push value⟩, bank => (bank.push channel value).map (none, ·)
  | ⟨channel, .pop⟩, bank => (bank.pop channel).map fun (newest, popped) => (some newest, popped)
  | ⟨channel, .peek⟩, bank => (bank.peek channel).map fun newest => (some newest, bank)

/-- The channel holds the entries of the pile, which are no more than it can hold. -/
structure Represents (channel : Channel) (bank : Bank) (pile : List Int32) : Prop where
  entries_eq : (bank.stack channel).entries = pile.reverse
  length_le : pile.length ≤ 65535

variable {bank : Bank} {channel : Channel} {pile : List Int32}

/-- Every channel of the first bank represents the pile of the first entry. -/
theorem represents_initial (channel : Channel) : Represents channel initial [0] where
  entries_eq := by rw [stack_initial]; rfl
  length_le := by decide

/-- The entries from the bottom of a channel to the newest are those of its pile. -/
theorem Represents.toList_eq (h : Represents channel bank pile) :
    (bank.stack channel).toList = pile := by
  rw [Stack.toList, h.entries_eq, List.reverse_reverse]

/-- The channel answers the operation as the pile does, and represents what the pile is then. -/
structure Follows (channel : Channel) (operation : Operation) (bank : Bank) (pile : List Int32) :
    Prop where
  reply_eq : (settle operate ⟨channel, operation⟩ bank).1 =
    (Pile.serve channel.mnemonic operation pile).1
  represents : Represents channel (settle operate ⟨channel, operation⟩ bank).2
    (Pile.serve channel.mnemonic operation pile).2

section Following

variable {operation : Operation} {fault : Fault} {entry : Option Int32} {next : Bank}
  {rest : List Int32}

/-- A channel follows its pile when both fail with the same fault. -/
theorem Represents.follows_of_error (h : Represents channel bank pile)
    (hoperate : operate ⟨channel, operation⟩ bank = .error fault)
    (hserve : Pile.serve channel.mnemonic operation pile = (.error fault, pile)) :
    Follows channel operation bank pile where
  reply_eq := by rw [settle_of_error hoperate, hserve]
  represents := by rw [settle_of_error hoperate, hserve]; exact h

/-- A channel follows a pile when both give the same entry, and it represents the pile then. -/
theorem Represents.follows_of_ok (hnext : Represents channel next rest)
    (hoperate : operate ⟨channel, operation⟩ bank = .ok (entry, next))
    (hserve : Pile.serve channel.mnemonic operation pile = (.ok entry, rest)) :
    Follows channel operation bank pile where
  reply_eq := by rw [settle_of_ok hoperate, hserve]
  represents := by rw [settle_of_ok hoperate, hserve]; exact hnext

end Following

/-- A channel follows its pile in a push. -/
theorem Represents.push (h : Represents channel bank pile) (value : Int32) :
    Follows channel (.push value) bank pile := by
  have hheight : (bank.stack channel).entries.length = pile.length := by
    rw [h.entries_eq, List.length_reverse]
  have hlimit : Stack.limit = 65535 := rfl
  have hlength := h.length_le
  cases hpush : bank.push channel value with
  | error fault =>
      obtain ⟨hfull, rfl⟩ := push_eq_error_iff.mp hpush
      refine h.follows_of_error (by rw [operate, hpush, Except.map]) ?_
      rw [Pile.serve, if_pos (by omega)]
  | ok pushed =>
      obtain ⟨hroom, hpushed, -⟩ := push_eq_ok_iff.mp hpush
      have hnext : Represents channel pushed (pile ++ [value]) := by
        constructor
        · rw [hpushed, h.entries_eq, List.reverse_append, List.reverse_singleton,
            List.singleton_append]
        · rw [List.length_append, List.length_singleton]
          omega
      refine hnext.follows_of_ok (by rw [operate, hpush, Except.map]) ?_
      rw [Pile.serve, if_neg (by omega)]

/-- A channel and its pile are both empty, or have the same newest entry. -/
theorem Represents.eq_nil_or_newest (h : Represents channel bank pile) :
    (pile = [] ∧ (bank.stack channel).entries = []) ∨
      ∃ below newest, pile = below ++ [newest] ∧
        (bank.stack channel).entries = newest :: below.reverse := by
  have hentries := h.entries_eq
  obtain rfl | ⟨below, newest, rfl⟩ := pile.eq_nil_or_concat'
  · exact .inl ⟨rfl, hentries⟩
  · rw [List.reverse_append, List.reverse_singleton, List.singleton_append] at hentries
    exact .inr ⟨below, newest, rfl, hentries⟩

/-- A channel follows its pile in a pop. -/
theorem Represents.pop (h : Represents channel bank pile) : Follows channel .pop bank pile := by
  obtain ⟨rfl, hentries⟩ | ⟨below, newest, rfl, hentries⟩ := h.eq_nil_or_newest
  · refine h.follows_of_error ?_ rfl
    rw [operate, pop_eq_error_iff.mpr ⟨hentries, rfl⟩, Except.map]
  · obtain ⟨popped, hpop, hbelow⟩ := exists_pop_of_entries hentries
    have hlength := h.length_le
    rw [List.length_append, List.length_singleton] at hlength
    have hnext : Represents channel popped below := ⟨hbelow, by omega⟩
    exact hnext.follows_of_ok (by rw [operate, hpop, Except.map]) Pile.serve_pop_concat

/-- A channel follows its pile in a look. -/
theorem Represents.peek (h : Represents channel bank pile) : Follows channel .peek bank pile := by
  obtain ⟨rfl, hentries⟩ | ⟨below, newest, rfl, hentries⟩ := h.eq_nil_or_newest
  · refine h.follows_of_error ?_ rfl
    rw [operate, peek_eq_error_iff.mpr ⟨hentries, rfl⟩, Except.map]
  · have hpeek : bank.peek channel = .ok newest := by
      rw [peek_eq_ok_iff, hentries, List.head?_cons]
    exact h.follows_of_ok (by rw [operate, hpeek, Except.map]) Pile.serve_peek_concat

/-- A channel follows its pile in every operation. -/
theorem Represents.follows (h : Represents channel bank pile) (operation : Operation) :
    Follows channel operation bank pile := by
  cases operation with
  | push value => exact h.push value
  | pop => exact h.pop
  | peek => exact h.peek

/-- A call leaves the stacks of the other channels alone. -/
theorem stack_eq_of_operate {call : Call} {entry : Option Int32} {next : Bank}
    (hother : call.channel ≠ channel) (h : operate call bank = .ok (entry, next)) :
    next.stack channel = bank.stack channel := by
  obtain ⟨asked, operation⟩ := call
  cases operation with
  | push value =>
      obtain ⟨pushed, hpush, hnext⟩ := map_eq_ok_iff.mp h
      obtain ⟨-, rfl⟩ := Prod.mk.inj hnext
      exact (push_eq_ok_iff.mp hpush).2.2 channel hother
  | pop =>
      obtain ⟨⟨newest, popped⟩, hpop, hnext⟩ := map_eq_ok_iff.mp h
      obtain ⟨-, rfl⟩ := Prod.mk.inj hnext
      exact (pop_eq_ok_iff.mp hpop).2 channel hother
  | peek =>
      obtain ⟨newest, -, hnext⟩ := map_eq_ok_iff.mp h
      obtain ⟨-, rfl⟩ := Prod.mk.inj hnext
      rfl

/-- A channel represents the same pile behind a call to another channel. -/
theorem Represents.settle_other {call : Call} (hother : call.channel ≠ channel)
    (h : Represents channel bank pile) : Represents channel (settle operate call bank).2 pile := by
  cases hoperate : operate call bank with
  | error fault =>
      rw [settle_of_error hoperate]
      exact h
  | ok result =>
      obtain ⟨entry, next⟩ := result
      rw [settle_of_ok hoperate]
      exact ⟨by rw [stack_eq_of_operate hother hoperate, h.entries_eq], h.length_le⟩

/-- A bank answers calls as nine separate piles do. Whatever calls are made, and in whatever order,
the calls to a channel are answered as a pile of the first entry that gets these calls only answers
them, and in the end the channel holds the entries that this pile does. -/
theorem log_operate_eq_piles (calls : List Call) :
    (log (settle operate) calls initial).map Prod.fst = calls ∧
      ∀ channel : Channel,
        project (·.on channel) (log (settle operate) calls initial) =
          log (Pile.serve channel.mnemonic) (calls.filterMap (·.on channel)) [0] ∧
        ((after (settle operate) calls initial).stack channel).toList =
          after (Pile.serve channel.mnemonic) (calls.filterMap (·.on channel)) [0] := by
  refine ⟨map_fst_log calls initial, fun channel => ?_⟩
  have hpicked (call : Call) (operation : Operation) (bank : Bank) (pile : List Int32)
      (hon : call.on channel = some operation) (h : Represents channel bank pile) :
      (settle operate call bank).1 = (Pile.serve channel.mnemonic operation pile).1 ∧
        Represents channel (settle operate call bank).2
          (Pile.serve channel.mnemonic operation pile).2 := by
    obtain ⟨rfl, rfl⟩ := Call.on_eq_some_iff.mp hon
    have hfollows := h.follows call.operation
    exact ⟨hfollows.reply_eq, hfollows.represents⟩
  have hothers (call : Call) (bank : Bank) (pile : List Int32) (hon : call.on channel = none)
      (h : Represents channel bank pile) :
      Represents channel (settle operate call bank).2 pile :=
    h.settle_other (Call.on_eq_none_iff.mp hon)
  obtain ⟨hlog, hafter⟩ := project_log hpicked hothers (represents_initial channel) calls
  exact ⟨hlog, hafter.toList_eq⟩

end Bank

end ChannelAsm
