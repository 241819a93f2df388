import ChannelAsm.Program.Build
import ChannelAsm.Proofs.Machine.History
import ChannelAsm.Proofs.Outcome.Ensures

/-!
# Concealment

Only three channels ever show what they hold: the two that entries are taken off, and the console.
Of the other six no more than the height matters. `Bank.Alike` relates banks that differ in nothing
else. Carried out on such banks a line comes down to primitives that are alike, by
`Program.alike_primitives`, and each of these leaves such banks and reports the same, by
`Primitive.Alike.perform`; `agree_runs` follows a list of runs.
-/

namespace ChannelAsm

/-- A channel whose entries are taken off or printed. -/
def Channel.IsVisible (channel : Channel) : Prop :=
  channel.IsScratch ∨ channel = .console

namespace Bank

/-- The banks hold the same on the visible channels, and as much on every channel. -/
structure Alike (left right : Bank) : Prop where
  stack_eq : ∀ channel, channel.IsVisible → left.stack channel = right.stack channel
  length_eq : ∀ channel,
    (left.stack channel).entries.length = (right.stack channel).entries.length

variable {left right : Bank} {channel : Channel}

/-- A bank is like itself. -/
theorem Alike.refl (bank : Bank) : bank.Alike bank :=
  ⟨fun _ _ => rfl, fun _ => rfl⟩

/-- Banks stay alike when a channel gets a new stack in both. On a hidden channel the two stacks
need only be of one height. -/
theorem Alike.set (h : left.Alike right) {first second : Stack}
    (hstacks : channel.IsVisible → first = second)
    (hlength : first.entries.length = second.entries.length) :
    (left.set channel first).Alike (right.set channel second) := by
  constructor
  · intro other hvisible
    rw [stack_set, stack_set]
    split
    · rename_i hother
      exact hstacks (hother ▸ hvisible)
    · exact h.stack_eq other hvisible
  · intro other
    rw [stack_set, stack_set]
    split
    · exact hlength
    · exact h.length_eq other

/-- A hidden channel may hold anything of the same height. -/
theorem alike_set {bank : Bank} {stack : Stack} (hhidden : ¬ channel.IsVisible)
    (hlength : (bank.stack channel).entries.length = stack.entries.length) :
    bank.Alike (bank.set channel stack) := by
  constructor
  · intro other hvisible
    have hother : channel ≠ other := fun heq => hhidden (heq ▸ hvisible)
    rw [stack_set, if_neg hother]
  · intro other
    rw [stack_set]
    split
    · rename_i hother
      exact hother ▸ hlength
    · rfl

/-- The newest entry of a visible channel is the same. -/
theorem Alike.newest_eq (h : left.Alike right) (hvisible : channel.IsVisible) :
    left.newest channel = right.newest channel := by
  rw [newest, newest, h.stack_eq channel hvisible]

end Bank

/-! ## Primitives -/

/-- The primitives are the same, but for a value that is put on a hidden channel. -/
inductive Primitive.Alike : Primitive → Primitive → Prop where
  | same (primitive : Primitive) : Alike primitive primitive
  | hidden {channel : Channel} {first second : Int32} :
      ¬ channel.IsVisible → Alike (.push channel first) (.push channel second)

/-- A list of primitives is like itself. -/
theorem Primitive.alike_self (primitives : List Primitive) :
    List.Forall₂ Primitive.Alike primitives primitives :=
  List.forall₂_same.mpr fun primitive _ => .same primitive

variable {left right : Bank}

namespace Primitive

/-- Pushes agree. Only on a visible channel must the values be the same. -/
theorem agree_push (h : left.Alike right) {channel : Channel} {first second : Int32}
    (hvalues : channel.IsVisible → first = second) :
    Outcome.Agree Bank.Alike ((push channel first).perform left)
      ((push channel second).perform right) := by
  refine Outcome.agree_ofExcept h (fun leftPushed rightPushed hleft hright => ?_) fun fault => ?_
  · obtain ⟨leftStack, hleftPush, rfl⟩ := map_eq_ok_iff.mp hleft
    obtain ⟨rightStack, hrightPush, rfl⟩ := map_eq_ok_iff.mp hright
    obtain ⟨_, hleftEntries⟩ := Stack.push_eq_ok_iff.mp hleftPush
    obtain ⟨_, hrightEntries⟩ := Stack.push_eq_ok_iff.mp hrightPush
    refine h.set (fun hvisible => Stack.ext ?_) ?_
    · rw [hleftEntries, hrightEntries, hvalues hvisible, h.stack_eq channel hvisible]
    · rw [hleftEntries, hrightEntries, List.length_cons, List.length_cons, h.length_eq channel]
  · rw [Bank.push_eq_error_iff, Bank.push_eq_error_iff, h.length_eq channel]

/-- Pops agree, as the scratch channels are visible. -/
theorem agree_pop (h : left.Alike right) (source : Scratch) :
    Outcome.Agree Bank.Alike ((pop source).perform left) ((pop source).perform right) := by
  have hstack := h.stack_eq source.channel (.inl source.isScratch)
  rw [perform, perform, Bank.pop, Bank.pop, hstack]
  cases (right.stack source.channel).pop source.channel.mnemonic with
  | error fault => exact ⟨h, rfl, rfl⟩
  | ok taken => exact Outcome.agree_ok (h.set (fun _ => rfl) rfl) #[]

/-- Looks agree, as they fail on an empty channel only. -/
theorem agree_look (h : left.Alike right) (channel : Channel) :
    Outcome.Agree Bank.Alike ((look channel).perform left) ((look channel).perform right) := by
  refine Outcome.agree_ofExcept h (fun first second hleft hright => ?_) fun fault => ?_
  · obtain ⟨_, _, rfl⟩ := map_eq_ok_iff.mp hleft
    obtain ⟨_, _, rfl⟩ := map_eq_ok_iff.mp hright
    exact h
  · rw [map_eq_error_iff, map_eq_error_iff, Bank.peek_eq_error_iff, Bank.peek_eq_error_iff,
      ← List.length_eq_zero_iff, h.length_eq channel, List.length_eq_zero_iff]

/-- Flushes agree, as the console is visible. -/
theorem agree_flush (h : left.Alike right) :
    Outcome.Agree Bank.Alike (flush.perform left) (flush.perform right) := by
  have hstack := h.stack_eq .console (.inr rfl)
  rw [perform, perform, Bank.flush, Bank.flush, hstack]
  exact Outcome.agree_ok (h.set (fun _ => rfl) rfl) _

/-- Primitives that are alike agree on banks that are alike. -/
theorem Alike.perform {primitive other : Primitive} (h : primitive.Alike other)
    (hbanks : left.Alike right) :
    Outcome.Agree Bank.Alike (primitive.perform left) (other.perform right) := by
  cases h with
  | hidden hhidden => exact agree_push hbanks fun hvisible => absurd hvisible hhidden
  | same =>
      cases primitive with
      | push channel value => exact agree_push hbanks fun _ => rfl
      | pop source => exact agree_pop hbanks source
      | look channel => exact agree_look hbanks channel
      | flush => exact agree_flush hbanks
      | record | exit | miss | refuse => exact ⟨hbanks, rfl, rfl⟩
      | reset => exact ⟨.refl .initial, rfl, rfl⟩

end Primitive

/-! ## Lines -/

/-- A service takes what it depends on from visible channels. -/
theorem Interrupt.primitives_eq (h : left.Alike right) (interrupt : Interrupt) :
    interrupt.primitives left = interrupt.primitives right := by
  have hnewest : left.newest .accumulator = right.newest .accumulator :=
    h.newest_eq (.inl (.inl rfl))
  have hdata : left.stack .data = right.stack .data := h.stack_eq .data (.inl (.inr rfl))
  cases interrupt with
  | exit => rw [primitives, primitives, hnewest]
  | transfer device => rw [primitives, primitives, hnewest, hdata]
  | flush => rfl

/-- An action comes down to primitives that are alike. Arithmetic on a hidden channel is the only
place where they may differ. -/
theorem Action.alike_primitives (h : left.Alike right) (action : Action) :
    List.Forall₂ Primitive.Alike (action.primitives left) (action.primitives right) := by
  cases action with
  | push channel values => exact Primitive.alike_self _
  | combine operation channel value =>
      by_cases hvisible : channel.IsVisible
      · rw [primitives, primitives, h.newest_eq hvisible]
        exact Primitive.alike_self _
      · -- The newest entries may differ here, and so may the results that are pushed.
        exact .cons (.same _) (.cons (.hidden hvisible) .nil)
  | interrupt code =>
      rw [primitives, primitives]
      cases Interrupt.ofCode? code with
      | none => exact Primitive.alike_self _
      | some service =>
          dsimp only
          rw [service.primitives_eq h]
          exact Primitive.alike_self _

namespace Program

variable (program : Program)

/-- A line comes down to primitives that are alike. -/
theorem alike_primitives (h : left.Alike right) (line : Line) :
    List.Forall₂ Primitive.Alike (program.primitives line left)
      (program.primitives line right) := by
  rw [primitives, primitives]
  cases line.words with
  | nil => exact .nil
  | cons word arguments =>
      dsimp only
      cases Mnemonic.ofWord? word with
      | none => exact Primitive.alike_self _
      | some mnemonic =>
          refine .cons (.same _) ?_
          cases program.action mnemonic arguments with
          | error fault => exact Primitive.alike_self _
          | ok action => exact action.alike_primitives h

/-- A line agrees on banks that are alike. -/
theorem agree_step (h : left.Alike right) (line : Line) :
    Outcome.Agree Bank.Alike (program.step line left) (program.step line right) := by
  rw [step_eq, step_eq]
  refine Outcome.agree_sequence ?_ (program.alike_primitives h line) h
  intro primitive other halike first second hbanks
  exact halike.perform hbanks

/-- A run agrees on banks that are alike. -/
theorem agree_run (h : left.Alike right) (name : String) :
    Outcome.Agree Bank.Alike (program.run name left) (program.run name right) := by
  rw [run, run]
  cases program.event? name with
  | none => exact Outcome.agree_ok h _
  | some lines =>
      refine (Outcome.agree_ok h _).andThen fun first second hreached => ?_
      refine Outcome.agree_sequence ?_ (List.forall₂_same.mpr fun line _ => rfl) hreached
      intro line _ hline first second hbanks
      subst hline
      exact (program.agree_step hbanks line).mapFailure _

/-- What the hidden channels hold never matters. Runs on banks that are alike, each from the bank
that the one before has left whether it failed or not, report the same in the same order and end
with the same result, and the banks that they leave are alike again. -/
theorem agree_runs (h : left.Alike right) (names : List String) :
    List.Forall₂ (Outcome.Agree Bank.Alike) (program.answers (names.map .run) left)
        (program.answers (names.map .run) right) ∧
      (program.bankAfter (names.map .run) left).Alike
        (program.bankAfter (names.map .run) right) := by
  induction names generalizing left right with
  | nil => exact ⟨.nil, h⟩
  | cons name rest ih =>
      have hrun := program.agree_run h name
      obtain ⟨hanswers, hbanks⟩ := ih hrun.state
      exact ⟨.cons hrun hanswers, hbanks⟩

/-- What the counter holds does not show, although the event adds to it and prints. -/
theorem agree_runs_counter :
    ∃ program,
      (link (.empty 0) ".section data\n---\nevent_e\nadd ecx 1\nmov eco 65\nint 7\n").result =
        .ok program ∧
      Bank.Alike .initial (Bank.initial.set .count (.singleton 5)) ∧
      List.Forall₂ (Outcome.Agree Bank.Alike)
        (program.answers (["e", "e"].map .run) .initial)
        (program.answers (["e", "e"].map .run) (Bank.initial.set .count (.singleton 5))) ∧
      (program.bankAfter (["e", "e"].map .run) .initial).Alike
        (program.bankAfter (["e", "e"].map .run) (Bank.initial.set .count (.singleton 5))) := by
  have hlinks : (link (.empty 0)
      ".section data\n---\nevent_e\nadd ecx 1\nmov eco 65\nint 7\n").result.isOk = true := by
    decide +kernel
  obtain ⟨program, hlink⟩ := exists_of_isOk hlinks
  have halike : Bank.Alike .initial (Bank.initial.set .count (.singleton 5)) :=
    Bank.alike_set (by simp [Channel.IsVisible, Channel.IsScratch])
      (by rw [Bank.stack_initial]; rfl)
  exact ⟨program, hlink, halike, program.agree_runs halike ["e", "e"]⟩

end Program

end ChannelAsm
