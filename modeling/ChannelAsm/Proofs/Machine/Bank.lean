import ChannelAsm.Machine.Bank
import ChannelAsm.Proofs.Except

/-!
# One operation on a bank

How pushing, popping and looking end, channel by channel: which channels they leave alone, when they
fail, and that a fault names the channel. Nothing else about the three operations is needed.
-/

namespace ChannelAsm.Bank

variable {bank pushed popped : Bank} {channel : Channel} {value : Int32} {fault : Fault}

/-- Another stack for a channel, the others being the same, makes the bank. -/
theorem set_eq_iff {changed : Bank} {stack : Stack} :
    bank.set channel stack = changed ↔ changed.stack channel = stack ∧
      ∀ other, channel ≠ other → changed.stack other = bank.stack other := by
  constructor
  · intro h
    subst h
    refine ⟨by simp, fun other hother => ?_⟩
    rw [stack_set, if_neg hother]
  · intro h
    obtain ⟨hstack, hothers⟩ := h
    ext other : 1
    rw [stack_set]
    split
    · rename_i hother
      rw [← hstack, hother]
    · rename_i hother
      exact (hothers other hother).symm

/-- A push succeeds below the limit. The value is on top and the other channels are the same. -/
theorem push_eq_ok_iff : bank.push channel value = .ok pushed ↔
    (bank.stack channel).entries.length < Stack.limit ∧
      (pushed.stack channel).entries = value :: (bank.stack channel).entries ∧
      ∀ other, channel ≠ other → pushed.stack other = bank.stack other := by
  rw [push, map_eq_ok_iff]
  constructor
  · intro h
    obtain ⟨stack, hpush, hset⟩ := h
    obtain ⟨hroom, hentries⟩ := Stack.push_eq_ok_iff.mp hpush
    obtain ⟨rfl, hothers⟩ := set_eq_iff.mp hset
    exact ⟨hroom, hentries, hothers⟩
  · intro h
    obtain ⟨hroom, hentries, hothers⟩ := h
    exact ⟨pushed.stack channel, Stack.push_eq_ok_iff.mpr ⟨hroom, hentries⟩,
      set_eq_iff.mpr ⟨rfl, hothers⟩⟩

/-- A push fails at the limit. -/
theorem push_eq_error_iff : bank.push channel value = .error fault ↔
    Stack.limit ≤ (bank.stack channel).entries.length ∧
      fault = .stackOverflow channel.mnemonic := by
  rw [push, map_eq_error_iff, Stack.push_eq_error_iff]

/-- A pop succeeds when there is an entry, which it takes. The other channels are the same. -/
theorem pop_eq_ok_iff : bank.pop channel = .ok (value, popped) ↔
    (bank.stack channel).entries = value :: (popped.stack channel).entries ∧
      ∀ other, channel ≠ other → popped.stack other = bank.stack other := by
  rw [pop, map_eq_ok_iff]
  constructor
  · intro h
    obtain ⟨⟨newest, below⟩, hpop, hset⟩ := h
    obtain ⟨rfl, hbelow⟩ := Prod.mk.inj hset
    obtain ⟨rfl, hothers⟩ := set_eq_iff.mp hbelow
    exact ⟨Stack.pop_eq_ok_iff.mp hpop, hothers⟩
  · intro h
    obtain ⟨hentries, hothers⟩ := h
    exact ⟨(value, popped.stack channel), Stack.pop_eq_ok_iff.mpr hentries,
      congrArg (Prod.mk value) (set_eq_iff.mpr ⟨rfl, hothers⟩)⟩

/-- A pop fails on an empty channel. -/
theorem pop_eq_error_iff : bank.pop channel = .error fault ↔
    (bank.stack channel).entries = [] ∧ fault = .stackUnderflow channel.mnemonic := by
  rw [pop, map_eq_error_iff, Stack.pop_eq_error_iff]

/-- There is a bank after a pop of the entry that comes first. -/
theorem exists_pop_of_entries {below : List Int32}
    (h : (bank.stack channel).entries = value :: below) :
    ∃ popped, bank.pop channel = .ok (value, popped) ∧
      (popped.stack channel).entries = below := by
  cases hpop : bank.pop channel with
  | ok taken =>
      obtain ⟨newest, popped⟩ := taken
      have hentries := (pop_eq_ok_iff.mp hpop).1
      rw [h] at hentries
      obtain ⟨rfl, hbelow⟩ := List.cons.inj hentries
      exact ⟨popped, rfl, hbelow.symm⟩
  | error fault =>
      rw [(pop_eq_error_iff.mp hpop).1] at h
      cases h

/-- A look gives the first entry. -/
theorem peek_eq_ok_iff : bank.peek channel = .ok value ↔
    (bank.stack channel).entries.head? = some value := by
  rw [peek, Stack.peek, Stack.top?]
  cases (bank.stack channel).entries.head? <;> simp

/-- A look fails on an empty channel. -/
theorem peek_eq_error_iff : bank.peek channel = .error fault ↔
    (bank.stack channel).entries = [] ∧ fault = .stackUnderflow channel.mnemonic := by
  rw [peek, Stack.peek, Stack.top?, ← List.head?_eq_none_iff]
  cases (bank.stack channel).entries.head? <;> simp [eq_comm]

end ChannelAsm.Bank
