import ChannelAsm.Diagnostic.Fault

/-!
# Memory

A memory is a fixed number of cells, each a 32-bit integer, all zero at first. Every access is
checked against the capacity before it happens. `get?_store` says what a successful store does to
each cell, and `check_eq_ok_iff` when an access is within bounds. Machines form the end of an access
in a word, where it may not fit; by `checkWords_eq` they refuse the same accesses.
-/

namespace ChannelAsm

/-- A row of cells. -/
structure Memory where
  cells : Array Int32
  deriving DecidableEq

namespace Memory

/-- The memory of the given capacity with every cell zero. -/
def zeroed (capacity : Nat) : Memory :=
  ⟨Array.replicate capacity 0⟩

/-- The capacity of a memory whose size is not chosen. -/
def defaultCapacity : Nat := 256

/-- The number of cells. -/
def capacity (memory : Memory) : Nat :=
  memory.cells.size

/-- The content of a cell, when the address is within bounds. -/
def get? (memory : Memory) (address : Nat) : Option Int32 :=
  memory.cells[address]?

/-- Refuse an access to cells that are not all within bounds. -/
def check (memory : Memory) (address count : Nat) : Except Fault Unit :=
  if address + count ≤ memory.capacity then .ok ()
  else .error (.outOfMemory count address memory.capacity)

/-- The sum of two machine words, unless it has wrapped around. -/
def checkedAdd? (first second : UInt64) : Option UInt64 :=
  let sum := first + second
  if sum < first then none else some sum

/-- The check in machine words. An access whose end does not fit into a word is refused. -/
def checkWords (memory : Memory) (address count : UInt64) : Except Fault Unit :=
  let refused := Fault.outOfMemory count.toNat address.toNat memory.capacity
  match checkedAdd? address count with
  | some last => if last.toNat ≤ memory.capacity then .ok () else .error refused
  | none => .error refused

/-- The contents of consecutive cells. -/
def read (memory : Memory) (address count : Nat) : Except Fault (List Int32) :=
  (memory.check address count).map fun () =>
    (memory.cells.extract address (address + count)).toList

/-- The cells with consecutive ones replaced. -/
def put (cells : Array Int32) (address : Nat) : List Int32 → Array Int32
  | [] => cells
  | value :: values => put (cells.setIfInBounds address value) (address + 1) values

/-- The memory with consecutive cells replaced: all of them, or none when one is out of bounds. -/
def store (memory : Memory) (address : Nat) (values : List Int32) : Except Fault Memory :=
  (memory.check address values.length).map fun () => ⟨put memory.cells address values⟩

/-- The memory with one cell replaced. -/
def write (memory : Memory) (address : Nat) (value : Int32) : Except Fault Memory :=
  memory.store address [value]

/-- An access is allowed exactly when its end is within the capacity. -/
theorem check_eq_ok_iff {memory : Memory} {address count : Nat} :
    memory.check address count = .ok () ↔ address + count ≤ memory.capacity := by
  unfold check
  split <;> simp_all

/-- An access within bounds is allowed. -/
theorem check_of_le {memory : Memory} {address count : Nat}
    (h : address + count ≤ memory.capacity) : memory.check address count = .ok () :=
  if_pos h

/-- An access out of bounds is refused, and tells the cells and the capacity. -/
theorem check_of_lt {memory : Memory} {address count : Nat}
    (h : memory.capacity < address + count) :
    memory.check address count = .error (.outOfMemory count address memory.capacity) :=
  if_neg (Nat.not_le.mpr h)

/-- The sum of two words is given when it has not wrapped around. -/
theorem checkedAdd?_of_le {first second : UInt64} (h : first ≤ first + second) :
    checkedAdd? first second = some (first + second) :=
  if_neg (UInt64.not_lt.mpr h)

/-- No sum of two words is given when it has wrapped around. -/
theorem checkedAdd?_of_lt {first second : UInt64} (h : first + second < first) :
    checkedAdd? first second = none :=
  if_pos h

/-- The machine's check is the one on numbers, for every capacity that is a machine word. -/
theorem checkWords_eq {memory : Memory} (hcapacity : memory.capacity < UInt64.size)
    (address count : UInt64) :
    memory.checkWords address count = memory.check address.toNat count.toNat := by
  have hsize : UInt64.size = 2 ^ 64 := rfl
  have haddress := address.toNat_lt
  have hcount := count.toNat_lt
  have hsum := UInt64.toNat_add address count
  by_cases hfits : address ≤ address + count
  · have hle := UInt64.le_iff_toNat_le.mp hfits
    have hexact : (address + count).toNat = address.toNat + count.toNat := by omega
    rw [checkWords, checkedAdd?_of_le hfits, check, ← hexact]
  · -- An end that has wrapped around would lie behind every capacity.
    have hwrapped := UInt64.not_le.mp hfits
    have hlt := UInt64.lt_iff_toNat_lt.mp hwrapped
    rw [checkWords, checkedAdd?_of_lt hwrapped, check_of_lt (by omega)]

/-- A store within bounds replaces the cells. -/
theorem store_of_le {memory : Memory} {address : Nat} {values : List Int32}
    (h : address + values.length ≤ memory.capacity) :
    memory.store address values = .ok ⟨put memory.cells address values⟩ := by
  rw [store, check_of_le h]
  rfl

/-- Every cell of a fresh memory is zero. -/
theorem get?_zeroed {capacity address : Nat} :
    (zeroed capacity).get? address = if address < capacity then some 0 else none := by
  simp [zeroed, get?, Array.getElem?_replicate]

/-- Replacing cells keeps their number. -/
theorem size_put (cells : Array Int32) (address : Nat) (values : List Int32) :
    (put cells address values).size = cells.size := by
  induction values generalizing cells address with
  | nil => rfl
  | cons value values ih => simp [put, ih]

/-- Replacing cells changes those cells and no other. -/
theorem getElem?_put (cells : Array Int32) (address other : Nat) (values : List Int32)
    (hbound : address + values.length ≤ cells.size) :
    (put cells address values)[other]? =
      if address ≤ other ∧ other < address + values.length then values[other - address]?
      else cells[other]? := by
  induction values generalizing cells address with
  | nil => rw [put, if_neg (by rw [List.length_nil]; omega)]
  | cons value values ih =>
      simp only [List.length_cons] at hbound
      rw [put, ih _ _ (by rw [Array.size_setIfInBounds]; omega)]
      by_cases hfirst : other = address
      · subst hfirst
        rw [if_neg (by omega), if_pos (by rw [List.length_cons]; omega),
          Array.getElem?_setIfInBounds_self_of_lt (by omega)]
        simp
      · by_cases hin : address + 1 ≤ other ∧ other < address + 1 + values.length
        · rw [if_pos hin, if_pos (by rw [List.length_cons]; omega),
            show other - address = (other - (address + 1)) + 1 by omega]
          rfl
        · rw [if_neg hin, if_neg (by rw [List.length_cons]; omega),
            Array.getElem?_setIfInBounds_ne (Ne.symm hfirst)]

/-- Replacing cells keeps those before and behind. -/
theorem toList_put (cells : Array Int32) (address : Nat) (values : List Int32)
    (hbound : address + values.length ≤ cells.size) :
    (put cells address values).toList =
      cells.toList.take address ++ values ++ cells.toList.drop (address + values.length) := by
  apply List.ext_getElem?
  intro other
  have hlength : (cells.toList.take address).length = address := by
    rw [List.length_take, Array.length_toList]
    omega
  rw [Array.getElem?_toList, getElem?_put _ _ _ _ hbound]
  by_cases hbefore : other < address
  · rw [if_neg (by omega), List.append_assoc, List.getElem?_append_left (by omega),
      List.getElem?_take_of_lt hbefore, Array.getElem?_toList]
  · by_cases hinside : other < address + values.length
    · rw [if_pos (by omega), List.append_assoc, List.getElem?_append_right (by omega), hlength,
        List.getElem?_append_left (by omega)]
    · rw [if_neg (by omega), List.append_assoc, List.getElem?_append_right (by omega), hlength,
        List.getElem?_append_right (by omega), List.getElem?_drop, Array.getElem?_toList]
      congr 1
      omega

/-- A successful store keeps the capacity. -/
theorem capacity_store {memory updated : Memory} {address : Nat} {values : List Int32}
    (h : memory.store address values = .ok updated) : updated.capacity = memory.capacity := by
  unfold store at h
  cases hcheck : memory.check address values.length with
  | error fault => simp [hcheck, Except.map] at h
  | ok =>
      simp only [hcheck, Except.map, Except.ok.injEq] at h
      subst h
      exact size_put ..

/-- A successful store changes exactly the cells it names. -/
theorem get?_store {memory updated : Memory} {address other : Nat} {values : List Int32}
    (h : memory.store address values = .ok updated) :
    updated.get? other =
      if address ≤ other ∧ other < address + values.length then values[other - address]?
      else memory.get? other := by
  unfold store at h
  cases hcheck : memory.check address values.length with
  | error fault => simp [hcheck, Except.map] at h
  | ok =>
      simp only [hcheck, Except.map, Except.ok.injEq] at h
      subst h
      exact getElem?_put _ _ _ _ (check_eq_ok_iff.mp hcheck)

end Memory

end ChannelAsm
