import ChannelAsm.Program.Build
import ChannelAsm.Proofs.Machine.Pushing
import ChannelAsm.Proofs.Source.Listing
import ChannelAsm.Proofs.Text.Numeral

/-!
# Literals of cells

Every cell has a hexadecimal spelling that stands for it, the least one included:
`Program.values_spelling`. So a `mov` of many values can be replaced by as many lines with literals.
`Program.step_literals` says that this leaves the same bank and ends alike, also when the channel
becomes full in the middle.
-/

namespace ChannelAsm

/-! ## Spellings -/

/-- The hexadecimal spelling of a cell. -/
def Operand.spelling (value : Int32) : String :=
  "0x" ++ String.ofList (Text.signedDigits 16 value.toInt)

/-- The characters of a spelling. -/
theorem Operand.toList_spelling (value : Int32) :
    (spelling value).toList = '0' :: 'x' :: Text.signedDigits 16 value.toInt := by
  simp [spelling]

/-- The spelling of a cell is read as the cell. -/
theorem Operand.value?_spelling (value : Int32) :
    (ofToken (spelling value)).value? = some (.ok value) := by
  have hoperand : ofToken (spelling value) =
      .hexadecimal (String.ofList (Text.signedDigits 16 value.toInt)) := by
    rw [ofToken, toList_spelling]
    rfl
  rw [hoperand, value?, String.toList_ofList, Text.int32?_signedDigits (by omega) (by omega)]

/-- The least cell has a spelling too. -/
example : Operand.spelling (-2147483648) = "0x-80000000" := by
  decide +kernel

/-- A spelling is a single word. -/
theorem Operand.words_spelling (value : Int32) :
    Text.words (spelling value).toList = [(spelling value).toList] := by
  refine Text.words_eq_singleton (fun c hc => ?_) ?_
  · rw [toList_spelling] at hc
    rcases List.mem_cons.mp hc with rfl | hc
    · decide
    · rcases List.mem_cons.mp hc with rfl | hc
      · decide
      · exact Text.isBlank_of_mem_signedDigits (by omega) (by omega) hc
  · rw [toList_spelling]
    exact List.cons_ne_nil _ _

/-- The line that pushes a cell on a channel by its spelling. -/
def Line.literal (number : Nat) (channel : Channel) (value : Int32) : Line :=
  .ofText number ("mov " ++ channel.mnemonic ++ " " ++ Operand.spelling value)

/-- The words of such a line. -/
theorem Line.words_literal (number : Nat) (channel : Channel) (value : Int32) :
    (literal number channel value).words =
      ["mov", channel.mnemonic, Operand.spelling value] := by
  have htext : "mov " ++ channel.mnemonic ++ " " ++ Operand.spelling value = String.ofList
      ("mov".toList ++ ' ' :: (channel.mnemonic.toList ++ ' ' ::
        (Operand.spelling value).toList)) := by
    simp [← String.toList_inj]
  have hmov : Text.words "mov".toList = ["mov".toList] := by
    decide
  have hmnemonic : Text.words channel.mnemonic.toList = [channel.mnemonic.toList] := by
    cases channel <;> decide
  rw [literal, htext, words_ofText, Text.words_append_cons (by decide),
    Text.words_append_cons (by decide), hmov, hmnemonic, Operand.words_spelling]
  simp

/-! ## Literals instead of a block -/

namespace Program

variable {program : Program} {channel : Channel} {token : String} {values : List Int32}
  {literals : List Line} {line : Line} {rest : List String}

/-- A spelling stands for its cell in every program. -/
theorem values_spelling (program : Program) (value : Int32) :
    program.values (Operand.spelling value) = .ok [value] :=
  values_of_numeral (Operand.value?_spelling value)

/-- A line with a literal pushes its cell. -/
theorem pushes_literal {value : Int32} {entries : List Int32}
    (h : line.words = "mov" :: channel.mnemonic :: Operand.spelling value :: rest) :
    program.Pushes channel entries line value := by
  intro bank _
  have hperform : (Action.push channel [value]).perform bank =
      .ofExcept bank (bank.push channel value) :=
    Outcome.done_andThen bank fun bank => .ofExcept bank (bank.push channel value)
  have hreads := @Reads.push program channel _ _ rest (program.values_spelling value)
  rw [step_of_reads h hreads, Outcome.reporting, Outcome.ok_andThen, Outcome.ok_andThen, hperform]

/-- Lines with literals push their cells. -/
theorem pushing_literals {entries : List Int32}
    (h : List.Forall₂ (fun literal value => ∃ rest, literal.words =
      "mov" :: channel.mnemonic :: Operand.spelling value :: rest) literals values) :
    program.Pushing channel entries literals values := by
  induction h generalizing entries with
  | nil => exact .nil entries
  | cons hline _ ih =>
      obtain ⟨rest, hwords⟩ := hline
      exact .cons (pushes_literal hwords) ih

/-- Carrying out a `mov` leaves the same bank and ends alike as carrying out one `mov` for each of
its values, up to the first that fails, with the spelling of the value as the operand. Both succeed,
or both find the channel full. -/
theorem step_literals (hvalues : program.values token = .ok values)
    (hline : line.words = "mov" :: channel.mnemonic :: token :: rest)
    (hliterals : List.Forall₂ (fun literal value => ∃ rest, literal.words =
      "mov" :: channel.mnemonic :: Operand.spelling value :: rest) literals values)
    (bank : Bank) :
    let whole := program.step line bank
    let stepwise := Outcome.sequence program.step literals bank
    (∀ value, program.values (Operand.spelling value) = .ok [value]) ∧
      whole.state = stepwise.state ∧ whole.result = stepwise.result ∧
      (whole.result = .ok () ∨ whole.result = .error (.stackOverflow channel.mnemonic)) := by
  intro whole stepwise
  have hwhole : whole = (Outcome.reporting bank #[.record (.executed line.text)]).andThen
      (Bank.pushAll channel values) :=
    step_of_reads hline (@Reads.push program channel _ _ rest hvalues) bank
  obtain ⟨reports, left, hpushed⟩ := (pushing_literals hliterals).ends rfl
  have hstepwise : stepwise = ⟨(bank.pushAll channel values).state, reports,
      (bank.pushAll channel values).result⟩ :=
    hpushed.sequence_eq
  obtain ⟨reached, hpush, -, -⟩ := bank.exists_pushAll_eq channel values
  rw [hwhole, hstepwise, Outcome.reporting, Outcome.ok_andThen, hpush]
  refine ⟨program.values_spelling, rfl, rfl, ?_⟩
  dsimp only
  split
  · exact .inl rfl
  · exact .inr rfl

/-- A block of two cells and the two literals end alike where only one cell has room. -/
theorem step_literals_tall :
    ∃ program, (link (.empty 4) ".section data\nm db -2147483648 5\n---\n").result = .ok program ∧
      program.values "m" = .ok [-2147483648, 5] ∧
      let bank := Bank.initial.set .count tallStack
      let whole := program.step (Line.ofText 1 "mov ecx m") bank
      let stepwise := Outcome.sequence program.step
        [Line.literal 1 .count (-2147483648), Line.literal 2 .count 5] bank
      whole.state = stepwise.state ∧ whole.result = stepwise.result ∧
        whole.result = .error (.stackOverflow "ecx") := by
  have hchecked : ((link (.empty 4)
      ".section data\nm db -2147483648 5\n---\n").result.toOption.any fun program =>
        decide ((program.values "m").toOption = some [-2147483648, 5])) = true := by
    decide +kernel
  obtain ⟨program, hlink, hblock⟩ := exists_of_any hchecked
  have hvalues : program.values "m" = .ok [-2147483648, 5] := by
    cases hread : program.values "m" with
    | error fault => simp [hread, Except.toOption] at hblock
    | ok values => simpa [hread, Except.toOption] using hblock
  have hline : (Line.ofText 1 "mov ecx m").words = ["mov", Channel.count.mnemonic, "m"] := by
    decide +kernel
  have hliterals : List.Forall₂ (fun literal value => ∃ rest, Line.words literal =
      "mov" :: Channel.count.mnemonic :: Operand.spelling value :: rest)
      [Line.literal 1 .count (-2147483648), Line.literal 2 .count 5] [-2147483648, 5] :=
    .cons ⟨[], Line.words_literal 1 .count _⟩ (.cons ⟨[], Line.words_literal 2 .count _⟩ .nil)
  obtain ⟨-, hstate, hresult, -⟩ :=
    step_literals hvalues hline hliterals (Bank.initial.set .count tallStack)
  refine ⟨program, hlink, hvalues, hstate, hresult, ?_⟩
  rw [step_of_reads hline (@Reads.push program .count _ _ [] hvalues)]
  rfl

end Program

end ChannelAsm
