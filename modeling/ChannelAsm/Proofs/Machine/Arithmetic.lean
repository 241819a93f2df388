import ChannelAsm.Proofs.Machine.Failure
import ChannelAsm.Proofs.Machine.Location
import ChannelAsm.Proofs.Machine.Pushing
import Mathlib.Data.Int.ModEq

/-!
# Chained arithmetic

Every result of arithmetic on a channel is pushed, so the next line goes on with it. Cells wrap at
32 bits, and as `Int32.ofInt` carries sums and products of integers over to cells, wrapping at every
step is as good as wrapping once at the end, which is `Arithmetic.ofInt_evaluate`. By
`Program.runLines_computes` a row of such lines leaves these results on the channel, up to the line
that finds no room.
-/

namespace ChannelAsm

namespace Arithmetic

/-- The result of an operation on integers, which do not wrap. -/
def exact : Arithmetic → Int → Int → Int
  | add, left, right => left + right
  | mul, left, right => left * right

/-- The integer that operations make of a first one, each with its cell. -/
def evaluate (terms : List (Arithmetic × Int32)) (start : Int) : Int :=
  terms.foldl (fun value term => term.1.exact value term.2.toInt) start

/-- The cells that operations make one after the other, each of the one before. -/
def results : List (Arithmetic × Int32) → Int32 → List Int32
  | [], _ => []
  | (operation, value) :: terms, top =>
      operation.apply top value :: results terms (operation.apply top value)

/-- A cell is congruent to an integer exactly when the integer wraps to it. -/
theorem modEq_iff_eq_ofInt (value : Int32) (integer : Int) :
    value.toInt ≡ integer [ZMOD 2 ^ 32] ↔ value = Int32.ofInt integer := by
  constructor
  · intro h
    have hwraps (integer : Int) : Int32.ofInt (integer % (2 ^ 32 : Nat)) = Int32.ofInt integer := by
      rw [Int32.ofInt_eq_iff_bmod_eq_toInt, Int32.toInt_ofInt]
      exact Int.emod_bmod integer (2 ^ 32)
    calc value = Int32.ofInt (value.toInt % (2 ^ 32 : Nat)) := by rw [hwraps, Int32.ofInt_toInt]
      _ = Int32.ofInt (integer % (2 ^ 32 : Nat)) := congrArg Int32.ofInt h
      _ = Int32.ofInt integer := hwraps integer
  · intro h
    subst h
    rw [Int32.toInt_ofInt]
    exact Int.bmod_emod

/-- An operation on cells is the wrapped operation on integers. -/
theorem apply_ofInt (operation : Arithmetic) (integer : Int) (value : Int32) :
    operation.apply (Int32.ofInt integer) value =
      Int32.ofInt (operation.exact integer value.toInt) := by
  cases operation with
  | add => rw [apply, exact, Int32.ofInt_add, Int32.ofInt_toInt]
  | mul => rw [apply, exact, Int32.ofInt_mul, Int32.ofInt_toInt]

/-- Wrapping at every step comes to the same as wrapping at the end. -/
theorem ofInt_evaluate (terms : List (Arithmetic × Int32)) (start : Int) :
    Int32.ofInt (evaluate terms start) =
      terms.foldl (fun value term => term.1.apply value term.2) (Int32.ofInt start) :=
  (List.foldl_hom Int32.ofInt fun integer term => apply_ofInt term.1 integer term.2).symm

/-- The result at a place is what the operations up to there make of the first cell. -/
theorem getElem?_results {terms : List (Arithmetic × Int32)} {top result : Int32} {index : Nat}
    (h : (results terms top)[index]? = some result) :
    result = Int32.ofInt (evaluate (terms.take (index + 1)) top.toInt) := by
  rw [ofInt_evaluate, Int32.ofInt_toInt]
  induction terms generalizing top index with
  | nil => cases h
  | cons term terms ih =>
      rw [List.take_succ_cons, List.foldl_cons]
      cases index with
      | zero =>
          rw [List.take_zero]
          exact (Option.some.inj h).symm
      | succ index => exact ih h

end Arithmetic

namespace Program

/-- The line is an operation on the channel with an operand that stands for one cell. -/
def Computes (program : Program) (channel : Channel) (line : Line) (term : Arithmetic × Int32) :
    Prop :=
  ∃ operand rest, line.words = term.1.mnemonic.word :: channel.mnemonic :: operand :: rest ∧
    program.values operand = .ok [term.2]

variable {program : Program} {channel : Channel} {line : Line} {lines : List Line}
  {operation : Arithmetic} {value top : Int32} {terms : List (Arithmetic × Int32)} {bank : Bank}
  {below : List Int32}

/-- An arithmetic line is recorded, and then the newest entry is looked at. -/
theorem Computes.step_eq (h : program.Computes channel line (operation, value)) (bank : Bank) :
    program.step line bank = (Outcome.reporting bank #[.record (.executed line.text)]).andThen
      (Bank.combine operation channel value) := by
  obtain ⟨operand, rest, hwords, hvalues⟩ := h
  exact step_of_reads hwords (.combine rest hvalues) bank

/-- An arithmetic line pushes the result on the newest entry. -/
theorem Computes.pushes (h : program.Computes channel line (operation, value)) :
    program.Pushes channel (top :: below) line (operation.apply top value) := by
  intro bank hentries
  have hpeek : bank.peek channel = .ok top :=
    Bank.peek_eq_ok_iff.mpr (by rw [hentries, List.head?_cons])
  rw [h.step_eq, Outcome.reporting, Outcome.ok_andThen, Outcome.ok_andThen, Bank.combine, hpeek]
  rfl

/-- An arithmetic line on an empty channel fails and changes nothing. -/
theorem Computes.step_of_empty (h : program.Computes channel line (operation, value))
    (hempty : (bank.stack channel).entries = []) :
    program.step line bank =
      ⟨bank, #[.record (.executed line.text)], .error (.stackUnderflow channel.mnemonic)⟩ := by
  have hpeek : bank.peek channel = .error (.stackUnderflow channel.mnemonic) :=
    Bank.peek_eq_error_iff.mpr ⟨hempty, rfl⟩
  rw [h.step_eq, Outcome.reporting, Outcome.ok_andThen, Bank.combine, hpeek]
  rfl

/-- Lines of which the first is arithmetic on an empty channel stop there. -/
theorem Computes.runLines_of_empty (h : program.Computes channel line (operation, value))
    (hempty : (bank.stack channel).entries = []) (following : List Line) :
    program.runLines (line :: following) bank = ⟨bank, #[.record (.executed line.text)],
      .error (diagnosticAt line (.stackUnderflow channel.mnemonic))⟩ :=
  runLines_of_break (.head (h.step_of_empty hempty))

/-- Arithmetic lines push their results one after the other. -/
theorem pushing_results (h : List.Forall₂ (program.Computes channel) lines terms) :
    program.Pushing channel (top :: below) lines (Arithmetic.results terms top) := by
  induction h generalizing top below with
  | nil => exact .nil _
  | cons hline _ ih => exact .cons hline.pushes ih

/-- A row of additions and multiplications on a channel with a newest entry pushes one result for
each line: the only cell that is congruent, modulo 32 bits, to what the operations up to there make
of that entry among the integers. When there is room for all, the lines succeed. Otherwise they stop
at the first line without room, and the results before it are there. Other channels do not change.
On an empty channel the first line fails. -/
theorem runLines_computes (hlines : List.Forall₂ (program.Computes channel) lines terms)
    (hheight : (bank.stack channel).entries.length ≤ 65535) :
    let height := (bank.stack channel).entries.length
    let outcome := program.runLines lines bank
    (∀ top, (bank.stack channel).top? = some top → ∃ results : List Int32,
      results.length = lines.length ∧
      (∀ index result, results[index]? = some result → ∀ value : Int32,
        value.toInt ≡ Arithmetic.evaluate (terms.take (index + 1)) top.toInt [ZMOD 2 ^ 32] ↔
          value = result) ∧
      (∀ other, other ≠ channel → outcome.state.stack other = bank.stack other) ∧
      (height + lines.length ≤ 65535 → outcome.result = .ok () ∧
        (outcome.state.stack channel).toList = (bank.stack channel).toList ++ results) ∧
      (65535 < height + lines.length → ∃ line,
        Outcome.Break program.step lines bank (65535 - height) line outcome.reports outcome.state
          (.stackOverflow channel.mnemonic) ∧
        outcome.result = .error (diagnosticAt line (.stackOverflow channel.mnemonic)) ∧
        (outcome.state.stack channel).toList =
          (bank.stack channel).toList ++ results.take (65535 - height))) ∧
    ((bank.stack channel).entries = [] → ∀ line following, lines = line :: following →
      outcome = ⟨bank, #[.record (.executed line.text)],
        .error (diagnosticAt line (.stackUnderflow channel.mnemonic))⟩) := by
  intro height outcome
  refine ⟨fun top htop => ?_, fun hempty line following hfirst => ?_⟩
  · obtain ⟨below, hentries⟩ := List.head?_eq_some_iff.mp htop
    have hpushing : program.Pushing channel (top :: below) lines (Arithmetic.results terms top) :=
      pushing_results hlines
    have hlength := hpushing.length_eq
    obtain ⟨reports, left, hfilled, hchain, hbreaks⟩ := hpushing.ends hentries
    have hroom : bank.room channel = 65535 - height := rfl
    rw [hroom, hlength] at hchain hbreaks
    refine ⟨Arithmetic.results terms top, hlength, ?_, ?_⟩
    · intro index result hresult value
      rw [Arithmetic.getElem?_results hresult]
      exact Arithmetic.modEq_iff_eq_ofInt _ _
    · rcases Nat.lt_or_ge 65535 (height + lines.length) with hfull | hfits
      · obtain ⟨line, hbreak⟩ := hbreaks (by omega)
        have hrun : outcome =
            ⟨left, reports, .error (diagnosticAt line (.stackOverflow channel.mnemonic))⟩ :=
          runLines_of_break hbreak
        rw [hrun]
        refine ⟨fun other hother => hfilled.stack_eq other hother.symm,
          fun hfits => absurd hfits (Nat.not_le.mpr hfull), fun _ => ⟨line, hbreak, rfl, ?_⟩⟩
        exact hfilled.toList_channel
      · have hrun : outcome = ⟨left, reports, .ok ()⟩ := runLines_of_chain (hchain (by omega))
        rw [hrun]
        refine ⟨fun other hother => hfilled.stack_eq other hother.symm, fun _ => ⟨rfl, ?_⟩,
          fun hfull => absurd hfull (Nat.not_lt.mpr hfits)⟩
        rw [hfilled.toList_channel, hroom, List.take_of_length_le (by omega)]
  · subst hfirst
    obtain ⟨_, _, hline, -, -⟩ := List.forall₂_cons_left_iff.mp hlines
    exact hline.runLines_of_empty hempty following

/-- A sum that wraps is pushed on a stack with room for one entry, and the product after it finds no
room. -/
theorem runLines_computes_tall :
    let bank := Bank.initial.set .count tallStack
    let lines := [Line.ofText 1 "add ecx 1", Line.ofText 2 "mul ecx 0x-3"]
    let outcome := bare.runLines lines bank
    List.Forall₂ (bare.Computes .count) lines [(.add, 1), (.mul, -3)] ∧
      (bank.stack .count).entries.length ≤ 65535 ∧
      outcome.result =
        .error (diagnosticAt (Line.ofText 2 "mul ecx 0x-3") (.stackOverflow "ecx")) ∧
      (outcome.state.stack .count).toList = tallStack.toList ++ [-2147483648] := by
  intro bank lines outcome
  have hlines : List.Forall₂ (bare.Computes .count) lines [(.add, 1), (.mul, -3)] :=
    .cons ⟨"1", [], by decide +kernel, by decide +kernel⟩
      (.cons ⟨"0x-3", [], by decide +kernel, by decide +kernel⟩ .nil)
  have hstack : bank.stack .count = tallStack := by
    rw [Bank.stack_set, if_pos rfl]
  have hlength : (bank.stack .count).entries.length = 65534 := by
    rw [hstack, ← tallStack.size_eq]
    rfl
  have hheight : (bank.stack .count).entries.length ≤ 65535 := by omega
  obtain ⟨hchained, -⟩ := runLines_computes hlines hheight
  obtain ⟨results, hresults, hunique, -, -, hfull⟩ := hchained 2147483647 (by rw [hstack]; rfl)
  have hexceeds : 65535 < (bank.stack .count).entries.length + lines.length := by
    show 65535 < (bank.stack .count).entries.length + 2
    omega
  obtain ⟨line, hbreak, hresult, htoList⟩ := hfull hexceeds
  rw [hlength] at hbreak htoList
  obtain ⟨_, _, _, _, hline, _⟩ := hbreak
  obtain rfl : Line.ofText 2 "mul ecx 0x-3" = line := Option.some.inj hline
  obtain ⟨first, second, rfl⟩ := List.length_eq_two.mp hresults
  obtain rfl : -2147483648 = first := (hunique 0 first rfl (-2147483648)).mp (by decide)
  rw [hstack] at htoList
  exact ⟨hlines, hheight, hresult, htoList⟩

end Program

end ChannelAsm
