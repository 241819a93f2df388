/-!
# Channels

The nine channels of the machine, each a stack of cells that programs address by mnemonic.
`ofMnemonic?_eq_some_iff` says that a mnemonic names one channel, and `index_injective` that no
two channels share an index.
-/

namespace ChannelAsm

/-- A channel of the machine. -/
inductive Channel where
  | accumulator
  | data
  | count
  | console
  | render
  | world
  | worldInput
  | keyboard
  | mouse
  deriving DecidableEq, Repr

namespace Channel

/-- The channels in the order of their indices. -/
def all : List Channel :=
  [accumulator, data, count, console, render, world, worldInput, keyboard, mouse]

/-- The word that names a channel in a program. -/
def mnemonic : Channel → String
  | accumulator => "eax"
  | data => "ebx"
  | count => "ecx"
  | console => "eco"
  | render => "ero"
  | world => "ewo"
  | worldInput => "ewi"
  | keyboard => "eki"
  | mouse => "emi"

/-- The position of a channel among all of them. -/
def index : Channel → Fin 9
  | accumulator => 0
  | data => 1
  | count => 2
  | console => 3
  | render => 4
  | world => 5
  | worldInput => 6
  | keyboard => 7
  | mouse => 8

/-- The address at which a channel is mapped: each occupies a page of `0x1000`. -/
def location (channel : Channel) : Nat :=
  channel.index * 0x1000

/-- An address at which no channel is mapped. -/
def unmappedLocation : Nat := 0xA000

/-- The channel that a word names. -/
def ofMnemonic? (word : String) : Option Channel :=
  all.find? (·.mnemonic = word)

/-- Channels with the same index are the same. -/
theorem index_injective {left right : Channel} (h : left.index = right.index) : left = right := by
  revert h
  cases left <;> cases right <;> decide

/-- Every index belongs to a channel. -/
theorem exists_index_eq : ∀ index : Fin 9, ∃ channel : Channel, channel.index = index
  | 0 => ⟨accumulator, rfl⟩
  | 1 => ⟨data, rfl⟩
  | 2 => ⟨count, rfl⟩
  | 3 => ⟨console, rfl⟩
  | 4 => ⟨render, rfl⟩
  | 5 => ⟨world, rfl⟩
  | 6 => ⟨worldInput, rfl⟩
  | 7 => ⟨keyboard, rfl⟩
  | 8 => ⟨mouse, rfl⟩

/-- A word names a channel exactly when it is the channel's mnemonic. -/
theorem ofMnemonic?_eq_some_iff {word : String} {channel : Channel} :
    ofMnemonic? word = some channel ↔ channel.mnemonic = word := by
  constructor
  · intro h
    simpa using List.find?_some h
  · rintro rfl
    cases channel <;> decide

end Channel

end ChannelAsm
