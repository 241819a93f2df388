import ChannelAsm.Proofs.Machine.Console
import ChannelAsm.Proofs.Machine.Reading
import ChannelAsm.Proofs.Machine.Transfer
import ChannelAsm.Proofs.Program.Declared

/-!
# Printing a block

A program prints a block in four lines: it pushes the cells on the data channel and their number on
the accumulator, moves as many entries to the console channel, and flushes that. The cells change
their order twice, so `Program.run_printing` says that they are printed as they are declared, and
that every channel is left as it was.
-/

namespace ChannelAsm

/-! ## Lines that succeed -/

namespace Program

variable {program : Program}

/-- A line is recorded when its words make an instruction, and succeeds when the action does. -/
theorem step_of_perform {line : Line} {mnemonic : Mnemonic} {arguments : List String}
    {action : Action} {bank reached : Bank} {reports : Array Report}
    (hwords : line.words = mnemonic.word :: arguments)
    (hreads : program.Reads mnemonic arguments action)
    (hperform : action.perform bank = .reporting reached reports) :
    program.step line bank =
      ⟨reached, #[.record (.executed line.text)] ++ reports, .ok ()⟩ := by
  rw [step_of_reads hwords hreads, Outcome.reporting, Outcome.ok_andThen, hperform]
  rfl

end Program

/-! ## The four actions -/

/-- Values and their number are pushed where there is room for them. -/
theorem Bank.exists_counted (bank : Bank) {values : List Int32}
    (hdata : (bank.stack .data).entries.length + values.length ≤ Stack.limit)
    (haccumulator : (bank.stack .accumulator).entries.length + 1 ≤ Stack.limit) :
    ∃ pushed counted, bank.pushAll .data values = .done pushed ∧
      pushed.pushAll .accumulator [Int32.ofNat values.length] = .done counted ∧
      (counted.stack .accumulator).entries =
        Int32.ofNat values.length :: (bank.stack .accumulator).entries ∧
      (counted.stack .data).entries = values.reverse ++ (bank.stack .data).entries ∧
      ∀ other, other ≠ .accumulator → other ≠ .data → counted.stack other = bank.stack other := by
  obtain ⟨pushed, hpush, hpushed, hpushedOthers⟩ := pushAll_of_le hdata
  have hsame := hpushedOthers .accumulator (by decide)
  obtain ⟨counted, hcount, hcounted, hcountedOthers⟩ :=
    @pushAll_of_le pushed .accumulator [Int32.ofNat values.length]
      (by rw [hsame]; exact haccumulator)
  refine ⟨pushed, counted, hpush, hcount, ?_, ?_, fun other hother hdata => ?_⟩
  · rw [hcounted, hsame]
    rfl
  · rw [hcountedOthers .data (by decide), hpushed]
  · rw [hcountedOthers other hother.symm, hpushedOthers other hdata.symm]

/-- Pushing values and their number, moving them and flushing prints the values and leaves every
channel as it was. -/
theorem Bank.exists_printing (bank : Bank) {values : List Int32}
    (hconsole : (bank.stack .console).entries.length = 1)
    (hdata : (bank.stack .data).entries.length + values.length ≤ Stack.limit)
    (hroom : values.length + 1 ≤ Stack.limit)
    (haccumulator : (bank.stack .accumulator).entries.length + 1 ≤ Stack.limit) :
    ∃ pushed counted moved reports, bank.pushAll .data values = .done pushed ∧
      pushed.pushAll .accumulator [Int32.ofNat values.length] = .done counted ∧
      counted.transfer .console = .done moved ∧
      moved.flush = .reporting bank reports ∧ Console.Prints values reports := by
  obtain ⟨bottom, hbottom⟩ := List.length_eq_one_iff.mp hconsole
  obtain ⟨pushed, counted, hpush, hcount, hnumber, hvalues, hothers⟩ :=
    bank.exists_counted hdata haccumulator
  have hkept := hothers .console (by decide) (by decide)
  -- No stack is so high that its height would not be a number of 32 bits.
  have hlength : (Int32.ofNat values.length).toInt.toNat = values.reverse.length := by
    have hlimit : Stack.limit = 65535 := rfl
    rw [Int32.toInt_ofNat_of_lt (by omega), List.length_reverse]
    rfl
  obtain ⟨moved, hmove, haccumulatorLeft, hdataLeft, hmoved, hmovedOthers⟩ :=
    @transfer_of_le counted .console values.reverse _ _ _ (by decide) (by decide) hnumber hlength
      hvalues (by rw [hkept, hconsole, List.length_reverse]; omega)
  have hwaiting : (moved.stack .console).toList = bottom :: values.reverse := by
    rw [Stack.toList, hmoved, hkept, hbottom, List.reverse_reverse, List.reverse_append]
    rfl
  obtain ⟨reports, hflush, hprints⟩ := Console.flush_eq hwaiting
  rw [List.reverse_reverse] at hprints
  have hsame : moved.set .console (.singleton bottom) = bank := by
    refine set_eq_iff.mpr ⟨Stack.ext hbottom, fun other hother => ?_⟩
    by_cases haccumulator : other = .accumulator
    · rw [haccumulator]
      exact Stack.ext haccumulatorLeft.symm
    · by_cases hdata : other = .data
      · rw [hdata]
        exact Stack.ext hdataLeft.symm
      · rw [hmovedOthers other haccumulator hdata hother.symm, hothers other haccumulator hdata]
  exact ⟨pushed, counted, moved, reports, hpush, hcount, hmove, hsame ▸ hflush, hprints⟩

/-! ## The event -/

/-- What prints values puts out one text, in which each value is spelled in its place, and nothing
when there are no values. -/
theorem Console.Prints.outputs {values : List Int32} {reports : Array Report}
    (h : Prints values reports) :
    (values = [] → Report.outputs reports = #[]) ∧
      (values ≠ [] → ∃ text, Report.outputs reports = #[.print text] ∧
        List.Forall₂ Spells values text.toList) := by
  cases h with
  | nothing => exact ⟨fun _ => rfl, fun hne => absurd rfl hne⟩
  | text hne hspells => exact ⟨fun hnil => absurd hnil hne, fun _ => ⟨_, rfl, hspells⟩⟩

namespace Program

/-- The words of the lines of an event that prints a block. -/
def printing (block length : String) : List (List String) :=
  [["mov", "ebx", block], ["mov", "eax", length], ["int", "0x01"], ["int", "0x07"]]

variable {program : Program} {declarations : List Declaration} {block length name : String}
  {values : List Int32} {bank : Bank}

/-- Lines with these words print the block when the operands stand for its values and their
number. -/
theorem runLines_printing {lines : List Line} (hwords : lines.map (·.words) = printing block length)
    (hblock : program.values block = .ok values)
    (hlength : program.values length = .ok [Int32.ofNat values.length])
    (hconsole : (bank.stack .console).entries.length = 1)
    (hdata : (bank.stack .data).entries.length + values.length ≤ Stack.limit)
    (hroom : values.length + 1 ≤ Stack.limit)
    (haccumulator : (bank.stack .accumulator).entries.length + 1 ≤ Stack.limit) :
    ∃ reports printed, program.runLines lines bank = ⟨bank, reports, .ok ()⟩ ∧
      Report.outputs reports = Report.outputs printed ∧ Console.Prints values printed := by
  obtain ⟨first, _, rfl, hfirst, hrest⟩ := List.map_eq_cons_iff.mp hwords
  obtain ⟨second, _, rfl, hsecond, hrest⟩ := List.map_eq_cons_iff.mp hrest
  obtain ⟨third, _, rfl, hthird, hrest⟩ := List.map_eq_cons_iff.mp hrest
  obtain ⟨fourth, _, rfl, hfourth, hrest⟩ := List.map_eq_cons_iff.mp hrest
  obtain rfl := List.map_eq_nil_iff.mp hrest
  obtain ⟨pushed, counted, moved, printed, hpush, hcount, hmove, hflush, hprints⟩ :=
    bank.exists_printing hconsole hdata hroom haccumulator
  have hmoves : program.values "0x01" = .ok [1] := values_of_numeral (by decide)
  have hflushes : program.values "0x07" = .ok [7] := values_of_numeral (by decide)
  have hpushes := @Reads.push program .data _ _ [] hblock
  have hcounts := @Reads.push program .accumulator _ _ [] hlength
  have hchain := Outcome.Chain.cons (step_of_perform hfirst hpushes hpush)
    (.cons (step_of_perform hsecond hcounts hcount)
      (.cons (step_of_perform hthird (.interrupt [] hmoves) hmove)
        (.cons (step_of_perform hfourth (.interrupt [] hflushes) hflush) (.nil bank))))
  refine ⟨_, printed, hchain.sequence_mapFailure fun line fault => fault.diagnostic.locate line,
    ?_, hprints⟩
  simp only [Report.outputs_append, Report.outputs_record, Array.empty_append,
    Array.append_empty]

/-- An event whose block is these four lines prints a block of the program. It runs in any bank in
which the console has a single entry and the other two channels have room. It succeeds, prints the
values in the order in which they are declared, each as its character, in one text, or nothing when
there are none, and leaves the bank as it was. The block and its length may be declared anywhere
among other declarations, as long as their names are symbols that are not declared before. -/
theorem run_printing (hdeclares : program.Declares declarations)
    (hblock : declarations.find? (·.name = block) = some (.block block values))
    (hlength : declarations.find? (·.name = length) = some (.lengthOf length block))
    (hblockSymbol : Operand.ofToken block = .symbol block)
    (hlengthSymbol : Operand.ofToken length = .symbol length)
    (hevent : (program.event? name).map (List.map (·.words)) = some (printing block length))
    (hconsole : (bank.stack .console).entries.length = 1)
    (hdata : (bank.stack .data).entries.length + values.length ≤ 65535)
    (hroom : values.length + 1 ≤ 65535)
    (haccumulator : (bank.stack .accumulator).entries.length + 1 ≤ 65535) :
    ∃ reports, program.run name bank = ⟨bank, reports, .ok ()⟩ ∧
      (values = [] → Report.outputs reports = #[]) ∧
      (values ≠ [] → ∃ text, Report.outputs reports = #[.print text] ∧
        List.Forall₂ Spells values text.toList) := by
  obtain ⟨lines, hlines, hwords⟩ := Option.map_eq_some_iff.mp hevent
  obtain ⟨reports, printed, hrun, houtputs, hprints⟩ :=
    runLines_printing hwords (hdeclares.values_block hblockSymbol hblock)
      (hdeclares.values_lengthOf hlengthSymbol hlength hblock) hconsole hdata hroom haccumulator
  refine ⟨#[.record (.eventStarted (Event.label name) lines.length)] ++ reports, ?_, ?_⟩
  · rw [run, hlines]
    dsimp only
    rw [Outcome.reporting, Outcome.ok_andThen, hrun]
  · rw [Report.outputs_append, Report.outputs_record, Array.empty_append, houtputs]
    exact hprints.outputs

/-- A source that prints three values, the last of which is no character. -/
def greetingSource : String :=
  ".section data\nk db 1\nm db 72 105 -1\nl equ $ - m\n---\n" ++
    "event_a\nmov ebx m\nmov eax l\nint 0x01\nint 0x07"

/-- A bank with entries of its own on the channels that printing uses. -/
def usedBank : Bank :=
  ((Bank.initial.set .accumulator ((Stack.singleton 0).grow 5)).set .data
    (((Stack.singleton 0).grow 8).grow 9)).set .console (.singleton 4)

/-- Three values are printed in the order in which they are declared, the last as the replacement
character, and the bank is left with the entries of its own. -/
theorem run_printing_greeting :
    ∃ program, (link (.empty 8) greetingSource).result = .ok program ∧
      ∃ reports, program.run "a" usedBank = ⟨usedBank, reports, .ok ()⟩ ∧
        Report.outputs reports = #[.print "Hi\uFFFD"] := by
  have hlinks : (link (.empty 8) greetingSource).result.isOk = true := by
    decide +kernel
  obtain ⟨program, hlink⟩ := exists_of_isOk hlinks
  have hsection : DataSection greetingSource
      [.ofText 2 "k db 1", .ofText 3 "m db 72 105 -1", .ofText 4 "l equ $ - m"]
      [.block "k" [1], .block "m" [72, 105, -1], .lengthOf "l" "m"] := by
    refine ⟨declarations?_eq_some_iff_behind.mp (by decide +kernel),
      .cons ?_ (.cons ?_ (.cons ?_ .nil))⟩
    · exact Declaration.ofWords_eq_ok_iff.mp (by decide +kernel)
    · exact Declaration.ofWords_eq_ok_iff.mp (by decide +kernel)
    · exact Declaration.ofWords_eq_ok_iff.mp (by decide +kernel)
  have hdeclares :
      program.Declares [.block "k" [1], .block "m" [72, 105, -1], .lengthOf "l" "m"] :=
    ⟨8, [], _, [], _, _, hlink, .nil, hsection, rfl⟩
  have hevent : (program.event? "a").map (List.map (·.words)) = some (printing "m" "l") := by
    rw [event?, lines_of_link hlink]
    decide +kernel
  obtain ⟨reports, hrun, _, hprints⟩ := @run_printing program _ _ _ _ _ usedBank hdeclares rfl rfl
    (by decide) (by decide) hevent (by decide) (by decide) (by decide) (by decide)
  obtain ⟨text, houtputs, hspells⟩ := hprints (List.cons_ne_nil _ _)
  have htext : text = "Hi\uFFFD" :=
    String.toList_inj.mp ((eq_map_glyph hspells).trans (by decide))
  exact ⟨program, hlink, reports, hrun, htext ▸ houtputs⟩

end Program

end ChannelAsm
