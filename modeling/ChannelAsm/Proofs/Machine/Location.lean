import ChannelAsm.Proofs.Machine.Faults

/-!
# Where a run stops

Running an event carries out the lines of its block up to the first that fails. `Finishes` says what
there is to say of a run that reaches the end, and `Stops` of one that does not: the line at which
it stops, where the diagnostic locates it, and that nothing behind it matters. `finishes_or_stops`
says that every run of an event of a linked program is one of these.
-/

namespace ChannelAsm.Program

variable {program : Program}

/-- The diagnostic of a fault at a line, with the number and the text of the line. -/
def diagnosticAt (line : Line) (fault : Fault) : Diagnostic where
  code := fault.code
  line := some line.number
  statement := line.text
  message := fault.message

/-- A fault that is located at a line for the first time tells that line. -/
theorem locate_diagnostic (line : Line) (fault : Fault) :
    fault.diagnostic.locate line = diagnosticAt line fault :=
  rfl

/-- Carrying out lines in order tells where the first that fails is. -/
theorem runLines_eq (lines : List Line) (bank : Bank) :
    program.runLines lines bank =
      Outcome.sequence (fun line bank => (program.step line bank).mapFailure (diagnosticAt line))
        lines bank := by
  unfold runLines
  simp only [locate_diagnostic]

/-- Lines that all succeed are carried out to the end. -/
theorem runLines_of_chain {lines : List Line} {bank final : Bank} {reports : Array Report}
    (h : Outcome.Chain program.step lines bank reports final) :
    program.runLines lines bank = ⟨final, reports, .ok ()⟩ := by
  rw [runLines_eq]
  exact h.sequence_mapFailure diagnosticAt

/-- Lines of which one fails are carried out up to there. -/
theorem runLines_of_break {lines : List Line} {bank left : Bank} {index : Nat} {line : Line}
    {reports : Array Report} {fault : Fault}
    (h : Outcome.Break program.step lines bank index line reports left fault) :
    program.runLines lines bank = ⟨left, reports, .error (diagnosticAt line fault)⟩ := by
  rw [runLines_eq]
  exact h.sequence_mapFailure diagnosticAt

/-- Every line of an event's block stands in the program at the place that its number tells. -/
theorem IsLinked.getElem?_number (h : program.IsLinked) {name : String} {block : List Line}
    (hblock : program.event? name = some block) {line : Line} (hline : line ∈ block) :
    1 ≤ line.number ∧ program.lines[line.number - 1]? = some line := by
  obtain ⟨text, htext⟩ := h.exists_listing
  obtain ⟨index, hindex⟩ := List.mem_iff_getElem?.mp ((event?_eq_some_iff.mp hblock).mem hline)
  have hnumber : line.number = index + 1 := Line.number_of_getElem? (htext ▸ hindex)
  rw [hnumber]
  exact ⟨Nat.le_add_left 1 index, hindex⟩

/-- The record that an event of this many lines starts. -/
def started (name : String) (block : List Line) : Array Report :=
  #[.record (.eventStarted (Event.label name) block.length)]

/-- Running an event carries out every line of its block, each with success. -/
structure Finishes (program : Program) (name : String) (block : List Line) (bank : Bank)
    (reports : Array Report) (final : Bank) : Prop where
  chain : Outcome.Chain program.step block bank reports final
  unbroken : ∀ index' line' reports' left' fault',
    ¬ Outcome.Break program.step block bank index' line' reports' left' fault'
  run_eq : program.run name bank = ⟨final, started name block ++ reports, .ok ()⟩
  outputs_eq : Report.outputs (program.run name bank).reports = Report.outputs reports
  bank_eq : (program.collect name bank).bank = final
  result_eq : (program.collect name bank).result = .ok (Report.outputs reports)

/-- Running an event carries out the lines of its block up to the one at an index, which fails, and
whatever stands behind it has no effect. -/
structure Stops (program : Program) (name : String) (block : List Line) (bank : Bank)
    (index : Nat) (line : Line) (reports : Array Report) (left : Bank) (fault : Fault) :
    Prop where
  breaks : Outcome.Break program.step block bank index line reports left fault
  unique : ∀ index' line' reports' left' fault',
    Outcome.Break program.step block bank index' line' reports' left' fault' → index' = index
  listed : 1 ≤ line.number ∧ program.lines[line.number - 1]? = some line
  code_mem : fault.code ∈ ErrorCode.ofRuns
  runLines_eq : ∀ following, program.runLines (block.take (index + 1) ++ following) bank =
    ⟨left, reports, .error (diagnosticAt line fault)⟩
  run_eq : program.run name bank =
    ⟨left, started name block ++ reports, .error (diagnosticAt line fault)⟩
  outputs_eq : Report.outputs (program.run name bank).reports = Report.outputs reports
  bank_eq : (program.collect name bank).bank = left
  result_eq : (program.collect name bank).result = .error (diagnosticAt line fault)

/-- The run of an event is that of its block, behind the record that it starts. -/
theorem run_of_event? {name : String} {block : List Line} (h : program.event? name = some block)
    (bank : Bank) :
    program.run name bank = ⟨(program.runLines block bank).state,
      started name block ++ (program.runLines block bank).reports,
      (program.runLines block bank).result⟩ := by
  rw [run, h]
  rfl

/-- That an event starts is no output. -/
theorem outputs_started (name : String) (block : List Line) (reports : Array Report) :
    Report.outputs (started name block ++ reports) = Report.outputs reports := by
  simp [Report.outputs, started, Array.filterMap_append, Report.output?]

/-- An event of a linked program either runs to its end, every line of its block succeeding in
order, or stops at one line of the block. The diagnostic then has the number of that line among the
lines of the program and its text, and its code is none of those that come from building. -/
theorem finishes_or_stops (hlinked : program.IsLinked) {name : String} {block : List Line}
    (hblock : program.event? name = some block) (bank : Bank) :
    (∃ reports final, program.Finishes name block bank reports final) ∨
      ∃ index line reports left fault,
        program.Stops name block bank index line reports left fault := by
  have hrun := run_of_event? hblock bank
  rcases Outcome.chain_or_break program.step block bank with
    ⟨reports, final, hchain⟩ | ⟨index, line, reports, left, fault, hbreak⟩
  · have hlines : program.runLines block bank = ⟨final, reports, .ok ()⟩ := by
      rw [runLines_eq]
      exact hchain.sequence_mapFailure diagnosticAt
    rw [hlines] at hrun
    refine .inl ⟨reports, final, hchain, fun _ _ _ _ _ hbreak => hbreak.not_chain hchain, hrun,
      ?_, ?_, ?_⟩
    · rw [hrun]
      exact outputs_started name block reports
    · rw [collect, hrun]
    · rw [collect, hrun]
      exact congrArg Except.ok (outputs_started name block reports)
  · -- What stands behind the line that fails can be exchanged.
    have hlines (others : List Line) (h : block.take (index + 1) = others.take (index + 1)) :
        program.runLines others bank = ⟨left, reports, .error (diagnosticAt line fault)⟩ := by
      rw [runLines_eq]
      exact (hbreak.congr h).sequence_mapFailure diagnosticAt
    rw [hlines block rfl] at hrun
    have ⟨_, reached, _, _, hget, hlast, _⟩ := hbreak
    have hcode : FailsOnly Fault.OfRuns (program.step line reached).result :=
      hlinked.failsOnly_step line reached
    rw [hlast] at hcode
    refine .inr ⟨index, line, reports, left, fault, hbreak, fun _ _ _ _ _ => hbreak.index_eq,
      hlinked.getElem?_number hblock (List.mem_of_getElem? hget), hcode fault rfl, ?_, hrun, ?_,
      ?_, ?_⟩
    · intro following
      obtain ⟨hindex, _⟩ := List.getElem?_eq_some_iff.mp hget
      have hlength : index + 1 ≤ (block.take (index + 1)).length := by
        rw [List.length_take]
        omega
      apply hlines
      rw [List.take_append_of_le_length hlength, List.take_take, Nat.min_self]
    · rw [hrun]
      exact outputs_started name block reports
    · rw [collect, hrun]
    · rw [collect, hrun]
      rfl

/-- A source with an event whose third line names no channel. -/
def strayingSource : String :=
  ".section data\n---\nevent_init\nmov eco 65\nint 7\nmov x 1\nmov eax 2\n"

/-- The lines of that event. -/
def strayingBlock : List Line :=
  [.ofText 4 "mov eco 65", .ofText 5 "int 7", .ofText 6 "mov x 1", .ofText 7 "mov eax 2"]

/-- An event stops at its third line, which names no channel. What the lines in front have printed
stays, and the line behind is not carried out. -/
theorem finishes_or_stops_unknown_channel :
    ∃ program reports left fault, (link (.empty 4) strayingSource).result = .ok program ∧
      program.event? "init" = some strayingBlock ∧
      program.Stops "init" strayingBlock .initial 2 (.ofText 6 "mov x 1") reports left fault ∧
      diagnosticAt (.ofText 6 "mov x 1") fault =
        ⟨.segmentationFault, some 6, "mov x 1", "stack x at 0xA000 not found"⟩ ∧
      Report.outputs reports = #[.print "A"] := by
  have hchecked : (link (.empty 4) strayingSource).result.toOption.any (fun program =>
      program.event? "init" = some strayingBlock ∧
        (program.run "init" .initial).result = .error
          ⟨.segmentationFault, some 6, "mov x 1", "stack x at 0xA000 not found"⟩ ∧
        Report.outputs (program.run "init" .initial).reports = #[.print "A"]) = true := by
    decide +kernel
  obtain ⟨program, hlink, hchecked⟩ := exists_of_any hchecked
  obtain ⟨hblock, hresult, houtputs⟩ := of_decide_eq_true hchecked
  rcases finishes_or_stops ⟨4, [], _, hlink⟩ hblock .initial with
    ⟨reports, final, hfinishes⟩ | ⟨index, line, reports, left, fault, hstops⟩
  · rw [hfinishes.run_eq] at hresult
    cases hresult
  · have htold := hresult
    rw [hstops.run_eq] at htold
    have htold := Except.error.inj htold
    -- The line that the diagnostic tells is the third of the block.
    have hnumber : line.number = 6 := Option.some.inj (congrArg Diagnostic.line htold)
    obtain ⟨_, _, _, _, hget, _⟩ := hstops.breaks
    obtain ⟨rfl, rfl⟩ : index = 2 ∧ line = .ofText 6 "mov x 1" := by
      match index, hget with
      | 0, hget | 1, hget | 3, hget =>
          obtain rfl := Option.some.inj hget
          cases hnumber
      | 2, hget => exact ⟨rfl, (Option.some.inj hget).symm⟩
    exact ⟨program, reports, left, fault, hlink, hblock, hstops, htold,
      hstops.outputs_eq ▸ houtputs⟩

end ChannelAsm.Program
