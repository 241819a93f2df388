import ChannelAsm.Diagnostic.Fault

/-!
# Stacks

A bounded stack of cells. The newest entry is the first of `entries`; `toList` is the view from
the bottom. The number of entries is kept beside them, so a push costs the same at any height.
Operations name the stack's owner, which the faults tell. A push writes first and takes the value
off again when the stack has become too high; `push_eq_ok_iff` and `pushInPlace_eq` say that no more
is left of it than the fault. `pop_eq_ok_iff` says what a pop does, and `drain_eq` what taking
entries one after the other comes to.
-/

namespace ChannelAsm

/-- A stack, its newest entry first. -/
structure Stack where
  entries : List Int32
  size : Nat
  size_eq : size = entries.length

namespace Stack

/-- The number of entries that a stack can hold. -/
def limit : Nat := 65535

/-- The stack without entries. -/
def empty : Stack :=
  ⟨[], 0, rfl⟩

/-- The stack with one entry. -/
def singleton (value : Int32) : Stack :=
  ⟨[value], 1, rfl⟩

/-- The entries from the bottom to the newest. -/
def toList (stack : Stack) : List Int32 :=
  stack.entries.reverse

/-- The newest entry. -/
def top? (stack : Stack) : Option Int32 :=
  stack.entries.head?

/-- The stack with one more entry on top, however high it is. -/
def grow (stack : Stack) (value : Int32) : Stack :=
  ⟨value :: stack.entries, stack.size + 1, by simp [stack.size_eq]⟩

/-- The stack without its newest entry. -/
def shrink (stack : Stack) : Stack :=
  ⟨stack.entries.tail, stack.size - 1, by simp [stack.size_eq]⟩

/-- Refuse a stack that is higher than the limit. -/
def checkHeight (stack : Stack) (owner : String) : Except Fault Unit :=
  if limit < stack.size then .error (.stackOverflow owner) else .ok ()

/-- Put a value on the stack in place, and take it off again when the stack has become too high. -/
def pushInPlace (stack : Stack) (owner : String) (value : Int32) : Except Fault Unit × Stack :=
  let grown := stack.grow value
  match grown.checkHeight owner with
  | .ok () => (.ok (), grown)
  | .error fault => (.error fault, grown.shrink)

/-- The stack that a push leaves, unless it fails. -/
def push (stack : Stack) (owner : String) (value : Int32) : Except Fault Stack :=
  let (result, left) := stack.pushInPlace owner value
  result.map fun () => left

/-- The newest entry and the stack below it. -/
def pop (stack : Stack) (owner : String) : Except Fault (Int32 × Stack) :=
  match stack with
  | ⟨value :: below, size, size_eq⟩ => .ok (value, ⟨below, size - 1, by simp [size_eq]⟩)
  | ⟨[], _, _⟩ => .error (.stackUnderflow owner)

/-- The newest entry, which stays. -/
def peek (stack : Stack) (owner : String) : Except Fault Int32 :=
  match stack.top? with
  | some value => .ok value
  | none => .error (.stackUnderflow owner)

/-- Take the newest entry as long as there is one below it; also the entries that are left. -/
def drainLoop (taken : Array Int32) : List Int32 → Array Int32 × List Int32
  | newest :: next :: below => drainLoop (taken.push newest) (next :: below)
  | left => (taken, left)

/-- The entries that are taken one after the other until a single one is left, and the stack that
is left. -/
def drain (stack : Stack) : List Int32 × Stack :=
  let (taken, left) := drainLoop #[] stack.entries
  (taken.toList, ⟨left, left.length, rfl⟩)

/-- Stacks are determined by their entries. -/
@[ext]
theorem ext {left right : Stack} (h : left.entries = right.entries) : left = right := by
  obtain ⟨_, _, hleft⟩ := left
  obtain ⟨_, _, hright⟩ := right
  cases h
  cases hleft
  cases hright
  rfl

/-- Equality of stacks is equality of their entries. -/
instance : DecidableEq Stack := fun left right =>
  decidable_of_iff (left.entries = right.entries) ⟨ext, fun h => h ▸ rfl⟩

/-- Taking off what was put on top gives the stack back. -/
theorem shrink_grow (stack : Stack) (value : Int32) : (stack.grow value).shrink = stack :=
  ext rfl

/-- Below the limit a push leaves the value on top. -/
theorem pushInPlace_of_lt {stack : Stack} {owner : String} {value : Int32}
    (h : stack.entries.length < limit) :
    stack.pushInPlace owner value = (.ok (), stack.grow value) := by
  have hheight : ¬ limit < (stack.grow value).size := by
    show ¬ limit < stack.size + 1
    rw [stack.size_eq]
    omega
  rw [pushInPlace, checkHeight, if_neg hheight]

/-- At the limit a push is undone and tells the owner. -/
theorem pushInPlace_of_le {stack : Stack} {owner : String} {value : Int32}
    (h : limit ≤ stack.entries.length) :
    stack.pushInPlace owner value = (.error (.stackOverflow owner), stack) := by
  have hheight : limit < (stack.grow value).size := by
    show limit < stack.size + 1
    rw [stack.size_eq]
    omega
  rw [pushInPlace, checkHeight, if_pos hheight]
  dsimp only
  rw [shrink_grow]

/-- A push in place leaves the stack of a push that succeeds, and otherwise the one before. -/
theorem pushInPlace_eq (stack : Stack) (owner : String) (value : Int32) :
    stack.pushInPlace owner value =
      match stack.push owner value with
      | .ok pushed => (.ok (), pushed)
      | .error fault => (.error fault, stack) := by
  rcases Nat.lt_or_ge stack.entries.length limit with hroom | hfull
  · rw [push, pushInPlace_of_lt hroom]
    rfl
  · rw [push, pushInPlace_of_le hfull]
    rfl

/-- A push succeeds below the limit and puts the value in front. -/
theorem push_eq_ok_iff {stack pushed : Stack} {owner : String} {value : Int32} :
    stack.push owner value = .ok pushed ↔
      stack.entries.length < limit ∧ pushed.entries = value :: stack.entries := by
  rcases Nat.lt_or_ge stack.entries.length limit with hroom | hfull
  · rw [push, pushInPlace_of_lt hroom]
    constructor
    · intro h
      cases h
      exact ⟨hroom, rfl⟩
    · rintro ⟨_, h⟩
      exact congrArg Except.ok (ext h.symm)
  · rw [push, pushInPlace_of_le hfull]
    constructor
    · intro h
      cases h
    · rintro ⟨hroom, _⟩
      exact absurd hfull (Nat.not_le.mpr hroom)

/-- A push fails exactly at the limit, naming the owner. -/
theorem push_eq_error_iff {stack : Stack} {owner : String} {value : Int32} {fault : Fault} :
    stack.push owner value = .error fault ↔
      limit ≤ stack.entries.length ∧ fault = .stackOverflow owner := by
  rcases Nat.lt_or_ge stack.entries.length limit with hroom | hfull
  · rw [push, pushInPlace_of_lt hroom]
    constructor
    · intro h
      cases h
    · rintro ⟨hfull, _⟩
      exact absurd hfull (Nat.not_le.mpr hroom)
  · rw [push, pushInPlace_of_le hfull]
    constructor
    · intro h
      cases h
      exact ⟨hfull, rfl⟩
    · rintro ⟨_, rfl⟩
      rfl

/-- A pop succeeds on a nonempty stack and takes the first entry. -/
theorem pop_eq_ok_iff {stack below : Stack} {owner : String} {value : Int32} :
    stack.pop owner = .ok (value, below) ↔ stack.entries = value :: below.entries := by
  obtain ⟨entries, size, hsize⟩ := stack
  cases entries with
  | nil => simp [pop]
  | cons newest rest =>
      simp only [pop, Except.ok.injEq, Prod.mk.injEq, List.cons.injEq]
      constructor
      · rintro ⟨rfl, rfl⟩
        exact ⟨rfl, rfl⟩
      · rintro ⟨rfl, h⟩
        exact ⟨rfl, ext h⟩

/-- A pop fails exactly on the empty stack, naming the owner. -/
theorem pop_eq_error_iff {stack : Stack} {owner : String} {fault : Fault} :
    stack.pop owner = .error fault ↔ stack.entries = [] ∧ fault = .stackUnderflow owner := by
  obtain ⟨entries, size, hsize⟩ := stack
  cases entries <;> simp [pop, eq_comm]

/-- Entries are taken down to the bottom one, which stays. -/
theorem drainLoop_append (taken : Array Int32) (above : List Int32) (bottom : Int32) :
    drainLoop taken (above ++ [bottom]) = (taken ++ above.toArray, [bottom]) := by
  induction above generalizing taken with
  | nil => exact congrArg (·, [bottom]) Array.append_empty.symm
  | cons newest rest ih =>
      -- What is left behind the newest entry is never empty, so the loop goes on.
      obtain ⟨next, below, hrest⟩ : ∃ next below, rest ++ [bottom] = next :: below :=
        List.exists_cons_of_ne_nil (List.append_ne_nil_of_right_ne_nil rest (by simp))
      rw [List.cons_append, hrest, drainLoop, ← hrest, ih]
      simp

/-- Draining a stack takes all that lies above its bottom entry, the newest first. -/
theorem drain_eq {stack : Stack} {above : List Int32} {bottom : Int32}
    (h : stack.entries = above ++ [bottom]) : stack.drain = (above, singleton bottom) := by
  rw [drain, h, drainLoop_append]
  simp [singleton]

end Stack

end ChannelAsm
