import ChannelAsm.Image.Memory
import ChannelAsm.Proofs.Dialogue
import ChannelAsm.Proofs.Except

/-!
# Accesses to a memory

A memory answers accesses one after the other. `expected` is what the log of earlier accesses says
the next answer is: the bounds decide whether there is one, and a cell holds what was last written
to it with success, or zero. `Mirrors.settle_access` says that a memory answers so if its cells
agree with the log, and that they agree with it afterwards. From this `history_eq_expected`
follows for any accesses to a fresh memory.
-/

namespace ChannelAsm.Memory

open Dialogue

/-! ## Accesses and their answers -/

/-- What is asked of a memory. -/
inductive Access where
  | write (address : Nat) (value : Int32)
  | read (address count : Nat)
  | check (address count : Nat)
  | get (address : Nat)

/-- What a memory answers to an access that succeeds. -/
inductive Answer where
  | done
  | cells (values : List Int32)
  | cell (value? : Option Int32)

/-- The answer to an access, and the memory behind it. -/
def access : Access → Memory → Except Fault (Answer × Memory)
  | .write address value, memory => (memory.write address value).map (.done, ·)
  | .read address count, memory => (memory.read address count).map (.cells ·, memory)
  | .check address count, memory => (memory.check address count).map fun () => (.done, memory)
  | .get address, memory => .ok (.cell (memory.get? address), memory)

/-- An access with its answer, or the fault with which it failed. -/
abbrev Entry := Access × Except Fault Answer

/-- The value that an entry of the log writes to the cell. -/
def written? (address : Nat) : Entry → Option Int32
  | (.write target value, .ok _) => if target = address then some value else none
  | _ => none

/-- The value last written to the cell with success, or zero if there is none. -/
def lastWritten (entries : List Entry) (address : Nat) : Int32 :=
  (entries.filterMap (written? address)).getLast?.getD 0

/-- What the bounds and the entries so far say that a memory of the capacity answers. -/
def expected (capacity : Nat) (entries : List Entry) : Access → Except Fault Answer
  | .write address _ =>
      if address < capacity then .ok .done else .error (.outOfMemory 1 address capacity)
  | .read address count =>
      if address + count ≤ capacity then
        .ok (.cells ((List.range' address count).map (lastWritten entries)))
      else .error (.outOfMemory count address capacity)
  | .check address count =>
      if address + count ≤ capacity then .ok .done
      else .error (.outOfMemory count address capacity)
  | .get address =>
      .ok (.cell (if address < capacity then some (lastWritten entries address) else none))

variable {memory : Memory} {capacity address count : Nat} {entries : List Entry} {entry : Entry}

/-- One more entry decides what was last written to the cells that it writes. -/
theorem lastWritten_concat : lastWritten (entries ++ [entry]) address =
    (written? address entry).getD (lastWritten entries address) := by
  rw [lastWritten, List.filterMap_append, lastWritten]
  cases hwritten : written? address entry with
  | none => rw [List.filterMap_cons_none hwritten, List.filterMap_nil, List.append_nil]; rfl
  | some value =>
      rw [List.filterMap_cons_some hwritten, List.filterMap_nil, List.getLast?_concat]
      rfl

/-! ## One access -/

/-- The memory has the capacity, and every cell holds what was last written to it. -/
structure Mirrors (capacity : Nat) (entries : List Entry) (memory : Memory) : Prop where
  capacity_eq : memory.capacity = capacity
  get?_eq : ∀ address, memory.get? address =
    if address < capacity then some (lastWritten entries address) else none

/-- A fresh memory mirrors the empty log. -/
theorem mirrors_zeroed (capacity : Nat) : Mirrors capacity [] (zeroed capacity) where
  capacity_eq := Array.size_replicate
  get?_eq _ := get?_zeroed

/-- A memory still mirrors a log with an entry that writes nothing. -/
theorem Mirrors.concat (h : Mirrors capacity entries memory)
    (hwritten : ∀ address, written? address entry = none) :
    Mirrors capacity (entries ++ [entry]) memory where
  capacity_eq := h.capacity_eq
  get?_eq address := by rw [h.get?_eq, lastWritten_concat, hwritten, Option.getD_none]

/-- Consecutive cells within bounds are read as what was last written to them. -/
theorem Mirrors.read_eq (h : Mirrors capacity entries memory)
    (hbound : address + count ≤ capacity) :
    memory.read address count =
      .ok ((List.range' address count).map (lastWritten entries)) := by
  have hcapacity : memory.cells.size = capacity := h.capacity_eq
  rw [read, check_of_le (by rw [h.capacity_eq]; exact hbound), Except.map]
  refine congrArg Except.ok (List.ext_getElem ?_ fun index hleft hright => ?_)
  · rw [Array.length_toList, Array.size_extract, List.length_map, List.length_range']
    omega
  · rw [List.length_map, List.length_range'] at hright
    have hcell := h.get?_eq (address + index)
    rw [get?, if_pos (by omega), Array.getElem?_eq_some_iff] at hcell
    obtain ⟨_, hcell⟩ := hcell
    rw [Array.getElem_toList, Array.getElem_extract, List.getElem_map, List.getElem_range',
      Nat.one_mul, hcell]

/-- A write within bounds gives a memory that mirrors the log with the write. -/
theorem Mirrors.write (h : Mirrors capacity entries memory) (hbound : address < capacity)
    (value : Int32) :
    ∃ updated, memory.write address value = .ok updated ∧
      Mirrors capacity (entries ++ [(.write address value, .ok .done)]) updated := by
  have hcapacity := h.capacity_eq
  obtain ⟨updated, hstore⟩ : ∃ updated, memory.store address [value] = .ok updated :=
    ⟨_, store_of_le (by rw [List.length_singleton]; omega)⟩
  refine ⟨updated, hstore, (capacity_store hstore).trans hcapacity, fun other => ?_⟩
  rw [get?_store hstore, List.length_singleton, lastWritten_concat, written?]
  by_cases hother : address = other
  · subst hother
    rw [if_pos (by omega), if_pos hbound, if_pos rfl, Nat.sub_self]
    rfl
  · rw [if_neg (by omega), if_neg hother, Option.getD_none, h.get?_eq]

/-- An access that fails is answered with its fault, and what mirrored the log still does. -/
theorem Mirrors.settle_of_error (h : Mirrors capacity entries memory) {request : Access}
    {fault : Fault} (haccess : access request memory = .error fault) :
    (settle access request memory).1 = .error fault ∧
      Mirrors capacity (entries ++ [(request, (settle access request memory).1)])
        (settle access request memory).2 := by
  rw [Dialogue.settle_of_error haccess]
  refine ⟨rfl, h.concat fun address => ?_⟩
  cases request <;> rfl

/-- An access that leaves the memory is answered with its answer, and what mirrored the log still
does. -/
theorem Mirrors.settle_of_ok (h : Mirrors capacity entries memory) {request : Access}
    {answer : Answer} (hwritten : ∀ address, written? address (request, .ok answer) = none)
    (haccess : access request memory = .ok (answer, memory)) :
    (settle access request memory).1 = .ok answer ∧
      Mirrors capacity (entries ++ [(request, (settle access request memory).1)])
        (settle access request memory).2 := by
  rw [Dialogue.settle_of_ok haccess]
  exact ⟨rfl, h.concat hwritten⟩

/-- A memory that mirrors the log answers an access as the log says, and then mirrors the log with
the access. -/
theorem Mirrors.settle_access (h : Mirrors capacity entries memory) (request : Access) :
    (settle access request memory).1 = expected capacity entries request ∧
      Mirrors capacity (entries ++ [(request, (settle access request memory).1)])
        (settle access request memory).2 := by
  have hcapacity := h.capacity_eq
  have hrefused (address count : Nat) (hbound : ¬ address + count ≤ capacity) :
      memory.check address count = .error (.outOfMemory count address capacity) := by
    rw [check_of_lt (by omega), hcapacity]
  -- Only a write within bounds gives another memory, and only its entry writes a cell.
  cases request with
  | write address value =>
      rw [expected]
      by_cases hbound : address < capacity
      · obtain ⟨updated, hwrite, hupdated⟩ := h.write hbound value
        have haccess : access (.write address value) memory = .ok (.done, updated) := by
          rw [access, hwrite, Except.map]
        rw [if_pos hbound, Dialogue.settle_of_ok haccess]
        exact ⟨rfl, hupdated⟩
      · rw [if_neg hbound]
        refine h.settle_of_error ?_
        rw [access, Memory.write, store, List.length_singleton, hrefused address 1 hbound]
        rfl
  | read address count =>
      rw [expected]
      by_cases hbound : address + count ≤ capacity
      · rw [if_pos hbound]
        refine h.settle_of_ok (fun _ => rfl) ?_
        rw [access, h.read_eq hbound, Except.map]
      · rw [if_neg hbound]
        refine h.settle_of_error ?_
        rw [access, read, hrefused address count hbound]
        rfl
  | check address count =>
      rw [expected]
      by_cases hbound : address + count ≤ capacity
      · rw [if_pos hbound]
        refine h.settle_of_ok (fun _ => rfl) ?_
        rw [access, check_of_le (by omega), Except.map]
      · rw [if_neg hbound]
        refine h.settle_of_error ?_
        rw [access, hrefused address count hbound, Except.map]
  | get address =>
      rw [expected, ← h.get?_eq]
      exact h.settle_of_ok (fun _ => rfl) rfl

/-- Every fault that is expected is that of an access out of bounds. -/
theorem code_of_expected {request : Access} {fault : Fault}
    (h : expected capacity entries request = .error fault) : fault.code = .outOfMemory := by
  unfold expected at h
  split at h
  · split at h <;> cases h
    rfl
  · split at h <;> cases h
    rfl
  · split at h <;> cases h
    rfl
  · cases h

/-- An access is within bounds exactly when the end, in machine words, has not wrapped around and
is within the capacity. -/
theorem check_toNat_iff (hcapacity : memory.capacity < UInt64.size) (address count : UInt64) :
    memory.check address.toNat count.toNat = .ok () ↔
      address ≤ address + count ∧ (address + count).toNat ≤ memory.capacity := by
  rw [← checkWords_eq hcapacity, checkWords]
  by_cases hfits : address ≤ address + count
  · rw [checkedAdd?_of_le hfits]
    simp [hfits]
  · rw [checkedAdd?_of_lt (UInt64.not_le.mp hfits)]
    simp [hfits]

/-! ## Any accesses -/

/-- What a fresh memory of the capacity is asked, and what it answers. -/
def history (capacity : Nat) (accesses : List Access) : List Entry :=
  log (settle access) accesses (zeroed capacity)

/-- The memory behind the accesses, when it was fresh before them. -/
def behind (capacity : Nat) (accesses : List Access) : Memory :=
  after (settle access) accesses (zeroed capacity)

/-- The memory behind accesses mirrors their history. -/
theorem mirrors_behind (capacity : Nat) (accesses : List Access) :
    Mirrors capacity (history capacity accesses) (behind capacity accesses) :=
  invariant (mirrors_zeroed capacity) (fun _ _ request h => (h.settle_access request).2) accesses

/-- A memory is an array with bounds. Whatever it is asked from its beginning on, every answer is
what the bounds and the entries before it say; in the end every cell holds what was last written to
it with success, and there is no other cell. An access that fails then is out of bounds, and leaves
the memory as it is. Whether an access is within bounds can be told in machine words: it is when
its end has not wrapped around and is within the capacity. -/
theorem history_eq_expected (capacity : Nat) (accesses : List Access) :
    (history capacity accesses).map Prod.fst = accesses ∧
      (∀ before request reply others,
        history capacity accesses = before ++ (request, reply) :: others →
        reply = expected capacity before request) ∧
      (∀ address, (behind capacity accesses).get? address =
        if address < capacity then some (lastWritten (history capacity accesses) address)
        else none) ∧
      (∀ request fault, (settle access request (behind capacity accesses)).1 = .error fault →
        fault.code = .outOfMemory ∧
          (settle access request (behind capacity accesses)).2 = behind capacity accesses) ∧
      (capacity < UInt64.size → ∀ address count : UInt64,
        (behind capacity accesses).check address.toNat count.toNat = .ok () ↔
          address ≤ address + count ∧ (address + count).toNat ≤ capacity) := by
  have hmirrors := mirrors_behind capacity accesses
  refine ⟨map_fst_log .., fun before request reply others h => ?_, hmirrors.get?_eq,
    fun request fault h => ?_, fun hcapacity address count => ?_⟩
  · obtain ⟨front, rfl, rfl⟩ := reply_of_log_eq h
    exact ((mirrors_behind capacity front).settle_access request).1
  · have hreply := (hmirrors.settle_access request).1
    exact ⟨code_of_expected (hreply.symm.trans h), snd_settle_of_fst_eq_error h⟩
  · rw [check_toNat_iff (by rw [hmirrors.capacity_eq]; exact hcapacity), hmirrors.capacity_eq]

end ChannelAsm.Memory
