import ChannelAsm.Proofs.Machine.Faults
import ChannelAsm.Proofs.Machine.History
import ChannelAsm.Proofs.Outcome.Ensures

/-!
# The first entries of channels

Every channel starts with one entry, which only the two scratch channels can lose. `Bank.Seeded` is
the invariant behind this, and `Bank.Grows` says which channels a run adds to and takes nothing off.
By `Primitive.kept_perform` no primitive of a line breaks either; `seeded_bankAfter` carries the
invariant through histories, and `seed_of_history` spells out what it says of them.
-/

namespace ChannelAsm

/-- When the fault is an empty stack, it is a scratch channel's. -/
def Fault.OnScratch (fault : Fault) : Prop :=
  ∀ stack, fault = .stackUnderflow stack → ∃ channel : Channel, channel.IsScratch ∧
    stack = channel.mnemonic

namespace Bank

variable {bank pushed popped : Bank} {channel : Channel} {value : Int32}

/-- No channel is above the limit, and every channel but the scratch channels stands on its first
entry. -/
structure Seeded (bank : Bank) : Prop where
  length_le : ∀ channel, (bank.stack channel).entries.length ≤ Stack.limit
  bottom : ∀ channel, ¬ channel.IsScratch → (bank.stack channel).entries.getLast? = some base

/-- Every channel but the scratch channels and the console has kept what it had. -/
def Grows (bank grown : Bank) : Prop :=
  ∀ channel, ¬ channel.IsScratch → channel ≠ .console →
    (bank.stack channel).entries <:+ (grown.stack channel).entries

/-- Nothing is lost where nothing happens. -/
theorem Grows.refl (bank : Bank) : bank.Grows bank :=
  fun _ _ _ => List.suffix_rfl

/-- What is kept twice is kept. -/
theorem Grows.trans {grown final : Bank} (h : bank.Grows grown) (hfinal : grown.Grows final) :
    bank.Grows final :=
  fun channel hscratch hconsole =>
    (h channel hscratch hconsole).trans (hfinal channel hscratch hconsole)

/-- A seeded bank that has lost nothing of another. -/
structure Kept (start bank : Bank) : Prop where
  seeded : bank.Seeded
  grows : start.Grows bank

/-- A seeded bank has lost nothing of itself. -/
theorem Seeded.kept (h : bank.Seeded) : bank.Kept bank :=
  ⟨h, .refl bank⟩

/-- A fresh bank is seeded. -/
theorem seeded_initial : initial.Seeded where
  length_le := by simp [Stack.singleton, Stack.limit]
  bottom := by simp [Stack.singleton]

/-- A channel that stands on its first entry has that entry at the bottom. -/
theorem Seeded.exists_toList_eq (h : bank.Seeded) (hscratch : ¬ channel.IsScratch) :
    ∃ above, (bank.stack channel).toList = base :: above := by
  have hbottom := h.bottom channel hscratch
  rw [← List.head?_reverse] at hbottom
  exact List.head?_eq_some_iff.mp hbottom

/-- A channel that stands on its first entry is not empty. -/
theorem Seeded.entries_ne_nil (h : bank.Seeded) (hscratch : ¬ channel.IsScratch) :
    (bank.stack channel).entries ≠ [] := by
  intro hempty
  have hbottom := h.bottom channel hscratch
  rw [hempty] at hbottom
  cases hbottom

/-- Looking at such a channel succeeds. -/
theorem Seeded.exists_peek (h : bank.Seeded) (hscratch : ¬ channel.IsScratch) :
    ∃ value, bank.peek channel = .ok value := by
  obtain ⟨value, rest, hvalue⟩ := List.exists_cons_of_ne_nil (h.entries_ne_nil hscratch)
  refine ⟨value, peek_eq_ok_iff.mpr ?_⟩
  rw [hvalue]
  rfl

/-- A push keeps the bank seeded. -/
theorem Seeded.push (h : bank.Seeded) (hpush : bank.push channel value = .ok pushed) :
    pushed.Seeded := by
  obtain ⟨hroom, hentries, hothers⟩ := push_eq_ok_iff.mp hpush
  constructor
  · intro other
    by_cases hother : channel = other
    · subst hother
      rw [hentries, List.length_cons]
      exact hroom
    · rw [hothers other hother]
      exact h.length_le other
  · intro other hscratch
    by_cases hother : channel = other
    · subst hother
      rw [hentries, List.getLast?_cons, h.bottom channel hscratch]
      rfl
    · rw [hothers other hother]
      exact h.bottom other hscratch

/-- A push loses nothing. -/
theorem grows_push (hpush : bank.push channel value = .ok pushed) : bank.Grows pushed := by
  obtain ⟨_, hentries, hothers⟩ := push_eq_ok_iff.mp hpush
  intro other _ _
  by_cases hother : channel = other
  · subst hother
    rw [hentries]
    exact List.suffix_cons value _
  · exact hothers other hother ▸ List.suffix_rfl

/-- A pop from a scratch channel keeps the bank seeded. -/
theorem Seeded.pop (h : bank.Seeded) (hscratch : channel.IsScratch)
    (hpop : bank.pop channel = .ok (value, popped)) : popped.Seeded := by
  obtain ⟨hentries, hothers⟩ := pop_eq_ok_iff.mp hpop
  constructor
  · intro other
    have hlength := h.length_le other
    by_cases hother : channel = other
    · subst hother
      rw [hentries, List.length_cons] at hlength
      omega
    · rw [hothers other hother]
      exact hlength
  · intro other hnot
    have hother : channel ≠ other := fun heq => hnot (heq ▸ hscratch)
    rw [hothers other hother]
    exact h.bottom other hnot

/-- A pop from a scratch channel takes nothing off the others. -/
theorem grows_pop (hscratch : channel.IsScratch)
    (hpop : bank.pop channel = .ok (value, popped)) : bank.Grows popped := by
  obtain ⟨_, hothers⟩ := pop_eq_ok_iff.mp hpop
  intro other hnot _
  have hother : channel ≠ other := fun heq => hnot (heq ▸ hscratch)
  exact hothers other hother ▸ List.suffix_rfl

/-- Flushing a console that stands on its first entry leaves just that entry. -/
theorem flush_of_bottom (h : (bank.stack .console).entries.getLast? = some base) :
    bank.flush.state = bank.set .console (.singleton base) := by
  obtain ⟨above, hentries⟩ := List.getLast?_eq_some_iff.mp h
  rw [flush, Stack.drain_eq hentries]
  rfl

/-- Flushing the console keeps the bank seeded. -/
theorem Seeded.flush (h : bank.Seeded) : bank.flush.state.Seeded := by
  rw [flush_of_bottom (h.bottom .console (by simp [Channel.IsScratch]))]
  constructor
  · intro other
    rw [stack_set]
    split
    · decide
    · exact h.length_le other
  · intro other hscratch
    rw [stack_set]
    split
    · rfl
    · exact h.bottom other hscratch

/-- Flushing the console takes nothing off the others. -/
theorem grows_flush : bank.Grows bank.flush.state := by
  intro other _ hconsole
  have hsame : bank.flush.state.stack other = bank.stack other := by
    show (bank.set .console _).stack other = _
    rw [stack_set, if_neg (Ne.symm hconsole)]
  exact hsame ▸ List.suffix_rfl

end Bank

variable {bank start : Bank}

/-- A primitive of a line keeps the bank seeded and the channels growing, and finds no channel empty
but the scratch channels. -/
theorem Primitive.kept_perform {primitive : Primitive}
    (hline : primitive.OfLine Fault.OnScratch) (h : bank.Seeded) :
    (primitive.perform bank).Ensures bank.Kept Fault.OnScratch := by
  cases primitive with
  | push channel value =>
      refine Outcome.ensures_ofExcept (fun pushed hpush => ?_) fun fault hpush => ?_
      · exact ⟨h.push hpush, Bank.grows_push hpush⟩
      · obtain ⟨_, rfl⟩ := Bank.push_eq_error_iff.mp hpush
        exact ⟨h.kept, nofun⟩
  | pop source =>
      refine Outcome.ensures_ofExcept (fun popped hpop => ?_) fun fault hpop => ?_
      · obtain ⟨⟨value, below⟩, htaken, rfl⟩ := map_eq_ok_iff.mp hpop
        exact ⟨h.pop source.isScratch htaken, Bank.grows_pop source.isScratch htaken⟩
      · obtain ⟨_, rfl⟩ := Bank.pop_eq_error_iff.mp (map_eq_error_iff.mp hpop)
        refine ⟨h.kept, fun stack hstack => ⟨source.channel, source.isScratch, ?_⟩⟩
        exact (Fault.stackUnderflow.inj hstack).symm
  | look channel =>
      refine Outcome.ensures_ofExcept (fun same hpeek => ?_) fun fault hpeek => ?_
      · obtain ⟨_, _, rfl⟩ := map_eq_ok_iff.mp hpeek
        exact h.kept
      · obtain ⟨hempty, rfl⟩ := Bank.peek_eq_error_iff.mp (map_eq_error_iff.mp hpeek)
        refine ⟨h.kept, fun stack hstack => ⟨channel, ?_, (Fault.stackUnderflow.inj hstack).symm⟩⟩
        by_contra hscratch
        exact h.entries_ne_nil hscratch hempty
  | flush => exact Outcome.ensures_ok ⟨h.flush, Bank.grows_flush⟩ _
  | record | exit | miss => exact Outcome.ensures_ok h.kept _
  | refuse fault =>
      have hfault : fault.OnScratch := hline
      exact Outcome.ensures_error h.kept hfault #[]
  | reset => exact hline.elim

namespace Program

variable (program : Program)

/-- Reading an instruction finds no stack empty. -/
theorem failsOnly_action_onScratch (mnemonic : Mnemonic) (arguments : List String) :
    FailsOnly Fault.OnScratch (program.action mnemonic arguments) := by
  refine failsOnly_action (fun fault htext => ?_) (fun token => ?_) mnemonic arguments
  · intro stack hstack
    subst hstack
    simp [Fault.OfText, Fault.code] at htext
  · refine (program.failsOnly_values token).mono fun fault hfault => ?_
    intro stack hstack
    subst hstack
    simp [Fault.code] at hfault

/-- A line keeps what its primitives keep. -/
theorem kept_step (line : Line) (h : start.Kept bank) :
    (program.step line bank).Ensures start.Kept Fault.OnScratch := by
  rw [step_eq]
  -- Each primitive is compared with the bank before it, and so by transitivity with the start.
  refine Outcome.ensures_sequence (fun primitive hprimitive reached hreached => ?_) h
  have hline := ofLine_of_mem program.failsOnly_action_onScratch hprimitive
  obtain ⟨⟨hseeded, hgrows⟩, hresult⟩ := primitive.kept_perform hline hreached.seeded
  exact ⟨⟨hseeded, hreached.grows.trans hgrows⟩, hresult⟩

/-- A run keeps what its lines keep. When it stops at an empty stack, its diagnostic names a scratch
channel. -/
theorem kept_run (name : String) (h : bank.Seeded) :
    (program.run name bank).Ensures bank.Kept fun diagnostic =>
      diagnostic.code = .stackUnderflow →
        ∃ channel : Channel, channel.IsScratch ∧ diagnostic.message = channel.mnemonic := by
  unfold run
  dsimp only
  split
  · exact Outcome.ensures_ok h.kept _
  · refine (Outcome.ensures_ok h.kept _).andThen fun reached hreached => ?_
    refine Outcome.ensures_sequence (fun line _ between hbetween => ?_) hreached
    refine (program.kept_step line hbetween).mapFailure fun fault hfault hcode => ?_
    cases fault with
    | stackUnderflow stack => exact hfault stack rfl
    | _ => cases hcode

/-- Requests keep the bank seeded. -/
theorem seeded_bankAfter (requests : List Request) (h : bank.Seeded) :
    (program.bankAfter requests bank).Seeded := by
  induction requests generalizing bank with
  | nil => exact h
  | cons request rest ih =>
      apply ih
      cases request with
      | run name => exact (program.kept_run name h).state.seeded
      | reset => exact Bank.seeded_initial

/-- Between resets the channels but the scratch channels and the console only grow. -/
theorem grows_bankAfter (names : List String) (h : bank.Seeded) :
    bank.Grows (program.bankAfter (names.map .run) bank) := by
  induction names generalizing bank with
  | nil => exact .refl bank
  | cons name rest ih =>
      obtain ⟨hseeded, hgrows⟩ := (program.kept_run name h).state
      exact hgrows.trans (ih hseeded)

/-- After any history no channel is above the limit. Every channel but the scratch channels stands
on a zero, so that looking at it never fails, and a run that stops at an empty stack names a scratch
channel. Until the next reset every channel but these and the console has kept what it had, whether
the runs that follow fail or not. -/
theorem seed_of_history (requests : List Request) :
    let bank := program.bankAfter requests .initial
    (∀ channel, (bank.stack channel).toList.length ≤ 65535) ∧
      (∀ channel, ¬ channel.IsScratch →
        (∃ above, (bank.stack channel).toList = 0 :: above) ∧
          ∃ value, bank.peek channel = .ok value) ∧
      (∀ name diagnostic, (program.run name bank).result = .error diagnostic →
        diagnostic.code = .stackUnderflow →
          diagnostic.message = "eax" ∨ diagnostic.message = "ebx") ∧
      ∀ (names : List String) channel, ¬ channel.IsScratch → channel ≠ .console →
        (bank.stack channel).toList <+:
          ((program.bankAfter (names.map .run) bank).stack channel).toList := by
  intro bank
  have h : bank.Seeded := program.seeded_bankAfter requests Bank.seeded_initial
  refine ⟨fun channel => ?_, fun channel hscratch => ?_, ?_, ?_⟩
  · rw [Stack.toList, List.length_reverse]
    exact h.length_le channel
  · exact ⟨h.exists_toList_eq hscratch, h.exists_peek hscratch⟩
  · intro name diagnostic hresult hcode
    obtain ⟨channel, hscratch, hmessage⟩ :=
      (program.kept_run name h).result diagnostic hresult hcode
    rcases hscratch with rfl | rfl
    · exact .inl hmessage
    · exact .inr hmessage
  · intro names channel hscratch hconsole
    exact List.reverse_prefix.mpr (program.grows_bankAfter names h channel hscratch hconsole)

end Program

end ChannelAsm
