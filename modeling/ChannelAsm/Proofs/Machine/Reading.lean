import ChannelAsm.Machine.Run
import ChannelAsm.Proofs.Except

/-!
# How the words of a line are read

The words behind a mnemonic can show four faults: a word is missing, the operand means nothing, it
means too many values or none, no channel has the name. `Program.textObjections` lists them in the
order in which they count, and `Program.of?_action` says that reading fails with the first. When
there is none, `Program.Reads` says which instruction the words make, and `Program.step_of_reads`
what the line then does.
-/

namespace ChannelAsm

/-! ## Faults in the text -/

/-- The fault of a computation that fails. -/
def Fault.of? {α : Type} : Except Fault α → Option Fault
  | .ok _ => none
  | .error fault => some fault

/-- A computation that has a fault fails with it. -/
theorem Fault.of?_eq_some_iff {α : Type} {computation : Except Fault α} {fault : Fault} :
    of? computation = some fault ↔ computation = .error fault := by
  cases computation <;> simp [of?]

namespace Mnemonic

/-- The positions behind a mnemonic, in the order of the words. -/
def positions : Mnemonic → List Position
  | int => [.operand]
  | mov | add | mul => [.channel, .operand]

/-- The word at a position, if the line has it. -/
def word? (mnemonic : Mnemonic) (arguments : List String) (position : Position) : Option String :=
  (mnemonic.positions.zip arguments).lookup position

/-- The fault that a word is missing: the first position behind the words. -/
def missing? (mnemonic : Mnemonic) (arguments : List String) : Option Fault :=
  mnemonic.positions[arguments.length]?.map .missingOperand

/-- The fault of an operand with too many values or none, of which `mov` takes any number. -/
def miscount? (mnemonic : Mnemonic) (values : List Int32) : Option Fault :=
  if mnemonic ≠ .mov ∧ values.length ≠ 1 then some (.wrongArgumentCount mnemonic values.length)
  else none

end Mnemonic

/-- The fault that no channel has a name. -/
def Channel.unmapped? (word : String) : Option Fault :=
  if ofMnemonic? word = none then some (.segmentationFault word) else none

namespace Program

/-- The faults that the text of a line with a mnemonic shows, each if there is one: a missing word,
an operand without a meaning, an operand with too many values or none, an unknown channel. -/
def textObjections (program : Program) (mnemonic : Mnemonic) (arguments : List String) :
    List (Option Fault) :=
  let operand? := mnemonic.word? arguments .operand
  [mnemonic.missing? arguments,
    operand?.bind fun operand => Fault.of? (program.values operand),
    operand?.bind fun operand => (program.values operand).toOption.bind mnemonic.miscount?,
    (mnemonic.word? arguments .channel).bind Channel.unmapped?]

end Program

/-- A word is mapped to a channel exactly when nothing is objected to it. -/
theorem Channel.of?_ofWord (word : String) : Fault.of? (ofWord word) = unmapped? word := by
  unfold ofWord unmapped?
  cases ofMnemonic? word <;> rfl

/-- Exactly one value passes where a mnemonic takes just one. -/
theorem Mnemonic.of?_single {mnemonic : Mnemonic} (h : mnemonic ≠ .mov) (values : List Int32) :
    Fault.of? (mnemonic.single values) = mnemonic.miscount? values := by
  unfold single miscount?
  split
  · rw [if_neg (by simp)]
    rfl
  · rename_i hvalues
    have hlength : values.length ≠ 1 := by
      intro hone
      obtain ⟨value, hvalue⟩ := List.length_eq_one_iff.mp hone
      exact hvalues value hvalue
    rw [if_pos ⟨h, hlength⟩]
    rfl

/-- A word that is mapped is the mnemonic of its channel. -/
theorem Channel.ofWord_eq_ok_iff {word : String} {channel : Channel} :
    ofWord word = .ok channel ↔ channel.mnemonic = word := by
  rw [← ofMnemonic?_eq_some_iff, ofWord]
  cases ofMnemonic? word <;> simp

/-- The value that passes is the only one. -/
theorem Mnemonic.single_eq_ok_iff {mnemonic : Mnemonic} {values : List Int32} {value : Int32} :
    mnemonic.single values = .ok value ↔ values = [value] := by
  unfold single
  split
  · simp
  · rename_i hvalues
    simp only [reduceCtorEq, false_iff]
    exact hvalues value

/-- Of two checks the first that fails counts. -/
theorem Fault.of?_bind_bind {α β γ : Type} (first : Except Fault α) (second : Except Fault β)
    (f : α → β → γ) :
    of? (do return f (← first) (← second)) = [of? first, of? second].findSome? id := by
  cases first <;> cases second <;> rfl

namespace Program

variable {program : Program} {mnemonic : Mnemonic} {arguments : List String} {fault : Fault}

/-- Reading an arithmetic instruction fails with the first fault in its text. -/
theorem of?_arithmetic (program : Program) (operation : Arithmetic) (arguments : List String) :
    Fault.of? (program.arithmetic operation arguments) =
      (program.textObjections operation.mnemonic arguments).findSome? id := by
  have hmov : operation.mnemonic ≠ .mov := by cases operation <;> decide
  have hpositions : operation.mnemonic.positions = [.channel, .operand] := by
    cases operation <;> rfl
  unfold textObjections Mnemonic.missing? Mnemonic.word?
  rw [hpositions]
  rcases arguments with _ | ⟨target, _ | ⟨operand, rest⟩⟩
  · rfl
  · rfl
  · show Fault.of? (program.values operand >>= _) =
      [none, Fault.of? (program.values operand),
        (program.values operand).toOption.bind operation.mnemonic.miscount?,
        Channel.unmapped? target].findSome? id
    -- The name of the channel is looked at last, after the operand and its number of values.
    cases program.values operand with
    | error fault => rfl
    | ok values =>
        show _ = [operation.mnemonic.miscount? values, Channel.unmapped? target].findSome? id
        rw [← Mnemonic.of?_single hmov, ← Channel.of?_ofWord, ← Fault.of?_bind_bind _ _
          fun value channel => Action.combine operation channel value]
        rfl

/-- Reading an instruction fails with the first fault in its text. -/
theorem of?_action (program : Program) (mnemonic : Mnemonic) (arguments : List String) :
    Fault.of? (program.action mnemonic arguments) =
      (program.textObjections mnemonic arguments).findSome? id := by
  cases mnemonic with
  | mov =>
      rcases arguments with _ | ⟨target, _ | ⟨operand, rest⟩⟩
      · rfl
      · rfl
      · show Fault.of? (program.values operand >>= _) =
          [none, Fault.of? (program.values operand),
            (program.values operand).toOption.bind (Mnemonic.miscount? .mov),
            Channel.unmapped? target].findSome? id
        rw [← Channel.of?_ofWord]
        cases program.values operand with
        | error fault => rfl
        | ok values =>
            exact Fault.of?_bind_bind (.ok values) (Channel.ofWord target) fun values channel =>
              Action.push channel values
  | add => exact program.of?_arithmetic .add arguments
  | mul => exact program.of?_arithmetic .mul arguments
  | int =>
      rcases arguments with _ | ⟨operand, rest⟩
      · rfl
      · show Fault.of? (program.values operand >>= _) =
          [none, Fault.of? (program.values operand),
            (program.values operand).toOption.bind (Mnemonic.miscount? .int), none].findSome? id
        cases program.values operand with
        | error fault => rfl
        | ok values =>
            show _ = [Mnemonic.miscount? .int values, none].findSome? id
            rw [← Mnemonic.of?_single (by decide)]
            exact Fault.of?_bind_bind (Mnemonic.single .int values) (.ok ()) fun code _ =>
              Action.interrupt code

/-- The fault with which reading fails is one of those that the text shows. -/
theorem mem_textObjections (h : program.action mnemonic arguments = .error fault) :
    some fault ∈ program.textObjections mnemonic arguments := by
  have hfirst := program.of?_action mnemonic arguments
  rw [h] at hfirst
  obtain ⟨objection?, hmem, hobjection⟩ := List.exists_of_findSome?_eq_some hfirst.symm
  rwa [show objection? = some fault from hobjection] at hmem

/-! ## Instructions -/

/-- A numeral stands for its value. -/
theorem values_of_numeral {token : String} {value : Int32}
    (h : (Operand.ofToken token).value? = some (.ok value)) :
    program.values token = .ok [value] := by
  rw [values, h]
  rfl

/-- `Reads program mnemonic arguments action` says which instruction the words make, and what its
operand stands for. Words after those that the mnemonic needs are ignored. -/
inductive Reads (program : Program) : Mnemonic → List String → Action → Prop where
  | push {channel : Channel} {operand : String} {values : List Int32} (rest : List String)
      (hvalues : program.values operand = .ok values) :
      Reads program .mov (channel.mnemonic :: operand :: rest) (.push channel values)
  | combine {operation : Arithmetic} {channel : Channel} {operand : String} {value : Int32}
      (rest : List String) (hvalues : program.values operand = .ok [value]) :
      Reads program operation.mnemonic (channel.mnemonic :: operand :: rest)
        (.combine operation channel value)
  | interrupt {operand : String} {code : Int32} (rest : List String)
      (hvalues : program.values operand = .ok [code]) :
      Reads program .int (operand :: rest) (.interrupt code)

/-- An arithmetic action belongs to words that make its instruction. -/
theorem reads_of_arithmetic {operation : Arithmetic} {action : Action}
    (h : program.arithmetic operation arguments = .ok action) :
    program.Reads operation.mnemonic arguments action := by
  rcases arguments with _ | ⟨target, _ | ⟨operand, rest⟩⟩
  · cases h
  · cases h
  · obtain ⟨_, ⟨⟩, h⟩ := bind_eq_ok_iff.mp h
    obtain ⟨_, ⟨⟩, h⟩ := bind_eq_ok_iff.mp h
    obtain ⟨values, hvalues, h⟩ := bind_eq_ok_iff.mp h
    obtain ⟨value, hvalue, h⟩ := bind_eq_ok_iff.mp h
    obtain ⟨channel, hchannel, h⟩ := bind_eq_ok_iff.mp h
    cases h
    obtain rfl := Mnemonic.single_eq_ok_iff.mp hvalue
    obtain rfl := Channel.ofWord_eq_ok_iff.mp hchannel
    exact .combine rest hvalues

/-- An action belongs to words that make its instruction. -/
theorem reads_of_action {action : Action} (h : program.action mnemonic arguments = .ok action) :
    program.Reads mnemonic arguments action := by
  cases mnemonic with
  | mov =>
      rcases arguments with _ | ⟨target, _ | ⟨operand, rest⟩⟩
      · cases h
      · cases h
      · obtain ⟨_, ⟨⟩, h⟩ := bind_eq_ok_iff.mp h
        obtain ⟨_, ⟨⟩, h⟩ := bind_eq_ok_iff.mp h
        obtain ⟨values, hvalues, h⟩ := bind_eq_ok_iff.mp h
        obtain ⟨channel, hchannel, h⟩ := bind_eq_ok_iff.mp h
        cases h
        obtain rfl := Channel.ofWord_eq_ok_iff.mp hchannel
        exact .push rest hvalues
  | add => exact reads_of_arithmetic h
  | mul => exact reads_of_arithmetic h
  | int =>
      rcases arguments with _ | ⟨operand, rest⟩
      · cases h
      · obtain ⟨_, ⟨⟩, h⟩ := bind_eq_ok_iff.mp h
        obtain ⟨values, hvalues, h⟩ := bind_eq_ok_iff.mp h
        obtain ⟨code, hcode, h⟩ := bind_eq_ok_iff.mp h
        cases h
        obtain rfl := Mnemonic.single_eq_ok_iff.mp hcode
        exact .interrupt rest hvalues

/-- Words that make an instruction are read as its action. -/
theorem action_of_reads {action : Action} (h : program.Reads mnemonic arguments action) :
    program.action mnemonic arguments = .ok action := by
  have hchannel (channel : Channel) : Channel.ofWord channel.mnemonic = .ok channel :=
    Channel.ofWord_eq_ok_iff.mpr rfl
  cases h with
  | push rest hvalues =>
      refine bind_eq_ok_iff.mpr ⟨_, rfl, bind_eq_ok_iff.mpr ⟨_, rfl, ?_⟩⟩
      exact bind_eq_ok_iff.mpr ⟨_, hvalues, bind_eq_ok_iff.mpr ⟨_, hchannel _, rfl⟩⟩
  | @combine operation channel operand value rest hvalues =>
      have haction : program.action operation.mnemonic (channel.mnemonic :: operand :: rest) =
          program.arithmetic operation (channel.mnemonic :: operand :: rest) := by
        cases operation <;> rfl
      rw [haction]
      refine bind_eq_ok_iff.mpr ⟨_, rfl, bind_eq_ok_iff.mpr ⟨_, rfl, ?_⟩⟩
      refine bind_eq_ok_iff.mpr ⟨_, hvalues, bind_eq_ok_iff.mpr ⟨value, rfl, ?_⟩⟩
      exact bind_eq_ok_iff.mpr ⟨_, hchannel _, rfl⟩
  | interrupt rest hvalues =>
      refine bind_eq_ok_iff.mpr ⟨_, rfl, bind_eq_ok_iff.mpr ⟨_, hvalues, ?_⟩⟩
      exact bind_eq_ok_iff.mpr ⟨_, rfl, rfl⟩

/-- A line whose words make an instruction is recorded, and then its action is carried out. -/
theorem step_of_reads {line : Line} {action : Action}
    (hwords : line.words = mnemonic.word :: arguments)
    (h : program.Reads mnemonic arguments action) (bank : Bank) :
    program.step line bank =
      (Outcome.reporting bank #[.record (.executed line.text)]).andThen action.perform := by
  rw [step, hwords]
  dsimp only
  rw [Mnemonic.ofWord?_eq_some_iff.mpr rfl]
  dsimp only
  rw [action_of_reads h]

end Program

end ChannelAsm
