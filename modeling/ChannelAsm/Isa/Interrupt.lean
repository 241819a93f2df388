import ChannelAsm.Isa.Channel

/-!
# Interrupts

The services that a program asks for by code: leaving with a status, moving cells to one of six
devices, and flushing the console.
-/

namespace ChannelAsm

/-- A device that cells can be moved to. -/
inductive Device where
  | console
  | render
  | world
  | worldInput
  | keyboard
  | mouse
  deriving DecidableEq, Repr

/-- The channel that stands for a device. -/
def Device.channel : Device → Channel
  | console => .console
  | render => .render
  | world => .world
  | worldInput => .worldInput
  | keyboard => .keyboard
  | mouse => .mouse

/-- A service of the machine. -/
inductive Interrupt where
  | exit
  | transfer (device : Device)
  | flush
  deriving DecidableEq, Repr

namespace Interrupt

/-- The code by which a program asks for a service. -/
def code : Interrupt → Int32
  | exit => 0
  | transfer .console => 1
  | transfer .render => 2
  | transfer .world => 3
  | transfer .worldInput => 4
  | transfer .keyboard => 5
  | transfer .mouse => 6
  | flush => 7

/-- The services in the order of their codes. -/
def all : List Interrupt :=
  [exit, transfer .console, transfer .render, transfer .world, transfer .worldInput,
    transfer .keyboard, transfer .mouse, flush]

/-- The service with a given code. -/
def ofCode? (value : Int32) : Option Interrupt :=
  all.find? (·.code = value)

/-- A code stands for a service exactly when it is that service's code. -/
theorem ofCode?_eq_some_iff {value : Int32} {interrupt : Interrupt} :
    ofCode? value = some interrupt ↔ interrupt.code = value := by
  constructor
  · intro h
    simpa using List.find?_some h
  · rintro rfl
    rcases interrupt with _ | device | _
    · decide
    · cases device <;> decide
    · decide

end Interrupt

end ChannelAsm
