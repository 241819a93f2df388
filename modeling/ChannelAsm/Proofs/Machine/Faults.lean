import ChannelAsm.Proofs.Machine.Objection
import ChannelAsm.Proofs.Machine.Reading
import ChannelAsm.Proofs.Outcome
import ChannelAsm.Proofs.Program.Meaning

/-!
# The faults of a running machine

Which kinds of failure a line can have when it is carried out. `Fault.OfRuns` lists them: full and
empty stacks, faults in the text of the line, and operands without a meaning. `failsOnly_step` says
that a line of a linked program has no other. The kinds that come from building a program, a refused
access to memory among them, are ruled out by what operands mean.
-/

namespace ChannelAsm

/-- The kinds of failure that carrying out a line can have. -/
def ErrorCode.ofRuns : List ErrorCode :=
  [.pointerNotFound, .invalidLiteral, .wrongArgumentCount, .missingOperand, .segmentationFault,
    .stackUnderflow, .stackOverflow]

/-- The fault is one that carrying out a line can have. -/
def Fault.OfRuns (fault : Fault) : Prop :=
  fault.code ∈ ErrorCode.ofRuns

/-- The fault is one that the text of a line shows, whatever its operand means. -/
def Fault.OfText (fault : Fault) : Prop :=
  fault.code ∈ [.missingOperand, .wrongArgumentCount, .segmentationFault]

/-- A fault in the text is noticed while a line is carried out. -/
theorem Fault.OfText.ofRuns {fault : Fault} (h : fault.OfText) : fault.OfRuns := by
  simp only [OfText, List.mem_cons, List.not_mem_nil, or_false] at h
  rcases h with h | h | h <;> simp [OfRuns, h, ErrorCode.ofRuns]

/-- An action fails on an empty or a full stack only. -/
theorem Action.failsOnly_perform (action : Action) (bank : Bank) :
    FailsOnly Fault.OfRuns (action.perform bank).result := by
  intro fault h
  obtain ⟨hobjection, -⟩ := (action.heeds_perform bank).of_error h
  rcases Action.code_of_objection? hobjection with hcode | hcode <;>
    simp [Fault.OfRuns, hcode, ErrorCode.ofRuns]

/-! ## The faults of lines -/

namespace Program

variable {program : Program}

/-- Reading an instruction has faults in the text and those of its operand. -/
theorem failsOnly_action {allowed : Fault → Prop}
    (htext : ∀ fault : Fault, fault.OfText → allowed fault)
    (hvalues : ∀ token, FailsOnly allowed (program.values token)) (mnemonic : Mnemonic)
    (arguments : List String) : FailsOnly allowed (program.action mnemonic arguments) := by
  intro fault h
  have hmem := mem_textObjections h
  simp only [textObjections, List.mem_cons, List.not_mem_nil, or_false] at hmem
  rcases hmem with hmissing | hmeaning | hcount | hchannel
  · obtain ⟨position, -, rfl⟩ := Option.map_eq_some_iff.mp hmissing.symm
    exact htext _ (by simp [Fault.OfText, Fault.code])
  · obtain ⟨operand, -, hfault⟩ := Option.bind_eq_some_iff.mp hmeaning.symm
    exact hvalues operand fault (Fault.of?_eq_some_iff.mp hfault)
  · obtain ⟨operand, -, hfault⟩ := Option.bind_eq_some_iff.mp hcount.symm
    obtain ⟨values, -, hfault⟩ := Option.bind_eq_some_iff.mp hfault
    obtain ⟨-, hsame⟩ := Option.ite_none_right_eq_some.mp hfault
    obtain rfl := Option.some.inj hsame
    exact htext _ (by simp [Fault.OfText, Fault.code])
  · obtain ⟨word, -, hfault⟩ := Option.bind_eq_some_iff.mp hchannel.symm
    obtain ⟨-, hsame⟩ := Option.ite_none_right_eq_some.mp hfault
    obtain rfl := Option.some.inj hsame
    exact htext _ (by simp [Fault.OfText, Fault.code])

/-- An operand fails as a numeral, as an unknown name or for want of memory. -/
theorem failsOnly_values (program : Program) (token : String) :
    FailsOnly (fun fault => fault.code ∈ [.invalidLiteral, .pointerNotFound, .outOfMemory])
      (program.values token) := by
  unfold values
  cases Operand.ofToken token with
  | hexadecimal digits =>
      dsimp only [Operand.value?]
      cases Text.int32? 16 digits.toList with
      | none => exact failsOnly_error (by simp [Fault.code])
      | some value => exact failsOnly_ok [value]
  | decimal digits =>
      dsimp only [Operand.value?]
      cases Text.int32? 10 digits.toList with
      | none => exact failsOnly_error (by simp [Fault.code])
      | some value => exact failsOnly_ok [value]
  | symbol name =>
      dsimp only [Operand.value?]
      cases program.symbols.get? token with
      | none => exact failsOnly_error (by simp [Fault.code])
      | some symbol =>
          intro fault h
          have hcheck : program.memory.check symbol.offset symbol.length = .error fault :=
            map_eq_error_iff.mp h
          unfold Memory.check at hcheck
          split at hcheck
          · cases hcheck
          · cases hcheck
            simp [Fault.code]

/-- An operand of a linked program fails as a numeral or as an unknown name only. -/
theorem IsLinked.failsOnly_values (h : program.IsLinked) (token : String) :
    FailsOnly Fault.OfRuns (program.values token) := by
  -- An operand that names a block is never refused its cells, as entries have no memory.
  obtain ⟨entries, hvalues⟩ := h.exists_entries
  intro fault hfault
  rw [hvalues] at hfault
  rcases Entry.denote_eq_error hfault with rfl | rfl <;>
    simp [Fault.OfRuns, Fault.code, ErrorCode.ofRuns]

/-- Reading an instruction of a linked program has faults of a line only. -/
theorem IsLinked.failsOnly_action (h : program.IsLinked) (mnemonic : Mnemonic)
    (arguments : List String) : FailsOnly Fault.OfRuns (program.action mnemonic arguments) :=
  Program.failsOnly_action (fun _ => Fault.OfText.ofRuns) h.failsOnly_values mnemonic arguments

/-- Carrying out a line of a linked program has faults of a line only. -/
theorem IsLinked.failsOnly_step (h : program.IsLinked) (line : Line) (bank : Bank) :
    FailsOnly Fault.OfRuns (program.step line bank).result := by
  unfold step
  split
  · exact failsOnly_ok ()
  · split
    · exact failsOnly_ok ()
    · rename_i mnemonic _
      refine Outcome.failsOnly_andThen (failsOnly_ok ()) fun bank => ?_
      cases haction : program.action mnemonic _ with
      | error fault => exact failsOnly_error (h.failsOnly_action mnemonic _ fault haction)
      | ok action => exact action.failsOnly_perform bank

end Program

end ChannelAsm
