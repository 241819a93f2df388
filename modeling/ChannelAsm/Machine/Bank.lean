import ChannelAsm.Machine.Stack

/-!
# Banks

A bank holds one stack for each channel. Every operation acts on one channel and leaves the other
eight alone: `stack_set` is the law behind that, and banks with equal stacks are equal.
-/

namespace ChannelAsm

/-- The stacks of all channels, in the order of their indices. -/
structure Bank where
  contents : Vector Stack 9
  deriving DecidableEq

namespace Bank

/-- The entry that every channel starts with. -/
def base : Int32 := 0

/-- The bank in which every channel holds just its first entry. -/
def initial : Bank :=
  ⟨Vector.replicate 9 (.singleton base)⟩

/-- The stack of a channel. -/
def stack (bank : Bank) (channel : Channel) : Stack :=
  bank.contents[channel.index]

/-- The bank with another stack for one channel. -/
def set (bank : Bank) (channel : Channel) (stack : Stack) : Bank :=
  ⟨bank.contents.set channel.index stack⟩

/-- The bank with one more entry on a channel. -/
def push (bank : Bank) (channel : Channel) (value : Int32) : Except Fault Bank :=
  ((bank.stack channel).push channel.mnemonic value).map (bank.set channel)

/-- The newest entry of a channel and the bank without it. -/
def pop (bank : Bank) (channel : Channel) : Except Fault (Int32 × Bank) :=
  ((bank.stack channel).pop channel.mnemonic).map fun (value, below) =>
    (value, bank.set channel below)

/-- The newest entry of a channel. -/
def peek (bank : Bank) (channel : Channel) : Except Fault Int32 :=
  (bank.stack channel).peek channel.mnemonic

/-- Setting a channel's stack changes that channel only. -/
@[simp]
theorem stack_set (bank : Bank) (channel other : Channel) (stack : Stack) :
    (bank.set channel stack).stack other = if channel = other then stack else bank.stack other := by
  simp only [Bank.stack, set]
  split
  · rename_i h
    subst h
    simp
  · rename_i h
    have hindex : (channel.index : Nat) ≠ other.index := fun heq =>
      h (Channel.index_injective (Fin.ext heq))
    simp [hindex]

/-- Every channel starts with a single entry. -/
@[simp]
theorem stack_initial (channel : Channel) : initial.stack channel = .singleton base := by
  simp [initial, Bank.stack]

/-- Banks with the same stack on every channel are the same. -/
@[ext]
theorem ext {left right : Bank} (h : ∀ channel, left.stack channel = right.stack channel) :
    left = right := by
  have hcontents : left.contents = right.contents := by
    ext index hindex : 1
    obtain ⟨channel, hchannel⟩ := Channel.exists_index_eq ⟨index, hindex⟩
    simpa [Bank.stack, hchannel] using h channel
  obtain ⟨_⟩ := left
  obtain ⟨_⟩ := right
  exact congrArg mk hcontents

end Bank

end ChannelAsm
