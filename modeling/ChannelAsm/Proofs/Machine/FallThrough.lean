import ChannelAsm.Proofs.Machine.Location
import ChannelAsm.Proofs.Program.Wording
import Mathlib.Data.List.Nodup

/-!
# Falling through a label

The block of an event may hold the label of another. Labels are passed over, so a run that gets
there goes on with what stands behind. `Program.Behind.inner` says that this is the block of the
other event, if no earlier line has its label, and `Program.run_through_label` that running the
first event is running the lines before the label and then the other event.
-/

namespace ChannelAsm

/-- No label is a mnemonic. -/
theorem Event.ofWord?_eq_none {label : String} (h : isLabel label = true) :
    Mnemonic.ofWord? label = none := by
  cases hmnemonic : Mnemonic.ofWord? label with
  | none => rfl
  | some mnemonic =>
      obtain rfl := Mnemonic.ofWord?_eq_some_iff.mp hmnemonic
      cases mnemonic <;> revert h <;> decide

/-- A line carries the label that is its first word. -/
theorem Line.label?_eq_some_iff {line : Line} {label : String} :
    line.label? = some label ↔ line.words.head? = some label ∧ Event.isLabel label = true := by
  rw [label?, Option.filter_eq_some_iff]

/-- A line carries the label of an event when this is its first word. -/
theorem Line.label?_eq_some_label_iff {line : Line} {name : String} :
    line.label? = some (Event.label name) ↔ line.words.head? = some (Event.label name) := by
  rw [label?_eq_some_iff]
  exact and_iff_left (Event.isLabel_label name)

namespace Program

/-! ## Blocks within blocks -/

/-- Numbered lines are all different. -/
theorem IsLinked.nodup_lines {program : Program} (h : program.IsLinked) : program.lines.Nodup := by
  obtain ⟨text, htext⟩ := h.exists_listing
  refine List.Nodup.of_map Line.number ?_
  rw [htext, Line.map_number_ofListing]
  exact List.nodup_range'

/-- When the first line that opens something stands in a stretch that something else opens, what it
opens is the rest of this stretch. -/
theorem Behind.inner {opens others : Line → Prop} [DecidablePred others]
    {lines stretch : List Line} {line : Line} (h : Behind opens lines stretch)
    (hnodup : lines.Nodup) (hfirst : lines.find? (others ·) = some line)
    (hline : line ∈ stretch) :
    ∃ front inner, stretch = front ++ line :: inner ∧ Behind others lines inner := by
  obtain ⟨before, first, rest, rfl, -, -, hstretch, hrest⟩ := h
  obtain ⟨front, inner, rfl⟩ := List.append_of_mem hline
  obtain ⟨hopens, earlier, later, hsplit, hearlier⟩ := List.find?_eq_some_iff_append.mp hfirst
  have hlines : before ++ first :: (front ++ line :: inner ++ rest) =
      (before ++ first :: front) ++ line :: (inner ++ rest) := by
    simp
  rw [hlines] at hsplit hnodup ⊢
  -- The line stands at one place only, so that what is in front of it is known.
  obtain ⟨-, hafter, hapart⟩ := List.nodup_append.mp hnodup
  have hfront : line ∉ before ++ first :: front := fun hmem =>
    hapart line hmem line List.mem_cons_self rfl
  have hback : line ∉ inner ++ rest := (List.nodup_cons.mp hafter).1
  obtain ⟨hbefore, -, -⟩ := (List.append_cons_inj_of_notMem hfront hback).mp hsplit
  refine ⟨front, inner, rfl, before ++ first :: front, line, rest, rfl, ?_, ?_, ?_, hrest⟩
  · intro other hother
    simpa using hearlier other (hbefore ▸ hother)
  · simpa using hopens
  · intro other hother
    exact hstretch other (List.mem_append_right front (List.mem_cons_of_mem line hother))

/-! ## Running through a label -/

variable {program : Program} {name : String}

/-- A line with a label is passed over in every state. -/
theorem step_of_label {line : Line} {label : String} (h : line.label? = some label) (bank : Bank) :
    program.step line bank = .reporting bank #[.record (.skipped line.text)] := by
  obtain ⟨hhead, hlabel⟩ := Line.label?_eq_some_iff.mp h
  obtain ⟨arguments, hwords⟩ := List.head?_eq_some_iff.mp hhead
  rw [step, hwords]
  dsimp only
  rw [Event.ofWord?_eq_none hlabel]

/-- A line with a label puts out nothing and changes nothing. -/
theorem unrecorded_runLines_cons {line : Line} {label : String} (h : line.label? = some label)
    (lines : List Line) (bank : Bank) :
    (program.runLines (line :: lines) bank).unrecorded =
      (program.runLines lines bank).unrecorded := by
  unfold runLines
  rw [Outcome.sequence_cons, step_of_label h, Outcome.reporting, Outcome.mapFailure_ok,
    Outcome.ok_andThen, Outcome.unrecorded, Report.outputs_append, Report.outputs_record,
    Array.empty_append]
  rfl

/-- Running an event puts out what the lines of its block do. -/
theorem unrecorded_run_of_event? {block : List Line} (h : program.event? name = some block)
    (bank : Bank) :
    (program.run name bank).unrecorded = (program.runLines block bank).unrecorded := by
  rw [run_of_event? h, Outcome.unrecorded, outputs_started]
  rfl

/-- Running the lines of two lists is running those of the first and then those of the second. -/
theorem runLines_append (front back : List Line) (bank : Bank) :
    program.runLines (front ++ back) bank =
      (program.runLines front bank).andThen (program.runLines back) :=
  Outcome.sequence_append _ front back bank

/-- A name stands for the event of its label. When there is none, a run tells that it is missing and
does nothing else. Otherwise the block is what stands between the first line that starts with the
label and the next sentinel. A block with the first label of another event in it ends with the block
of that event, and running it goes on with running that event. -/
theorem run_through_label (hlinked : program.IsLinked) (name : String) :
    program.event? name = program.event? (Event.label name) ∧
      (program.event? name = none ↔ Event.label name ∉ program.events) ∧
      (program.event? name = none → ∀ bank, ∃ reports,
        program.run name bank = ⟨bank, reports, .ok ()⟩ ∧
          Report.outputs reports = #[.missingEvent (Event.label name)]) ∧
      (∀ block, program.event? name = some block ↔
        Behind (fun line => line.words.head? = some (Event.label name)) program.lines block) ∧
      ∀ other block line, program.event? name = some block →
        program.lines.find? (·.words.head? = some (Event.label other)) = some line →
        line ∈ block → ∃ front back, block = front ++ line :: back ∧
          program.event? other = some back ∧
          ∀ bank, (program.run name bank).unrecorded =
            ((program.runLines front bank).andThen (program.run other)).unrecorded := by
  have hblock (name : String) (block : List Line) : program.event? name = some block ↔
      Behind (fun line => line.words.head? = some (Event.label name)) program.lines block := by
    rw [event?_eq_some_iff]
    simp only [Line.label?_eq_some_label_iff]
  refine ⟨?_, event?_eq_none_iff, fun hnone bank => ?_, hblock name, ?_⟩
  · rw [event?, event?, Event.label_label]
  · rw [run, hnone]
    exact ⟨_, rfl, rfl⟩
  · intro other block line hevent hfirst hline
    obtain ⟨front, back, rfl, hback⟩ :=
      ((hblock name block).mp hevent).inner hlinked.nodup_lines hfirst hline
    have hother : program.event? other = some back := (hblock other back).mpr hback
    refine ⟨front, back, rfl, hother, fun bank => ?_⟩
    have hlabel : line.label? = some (Event.label other) := by
      rw [Line.label?_eq_some_label_iff]
      simpa using List.find?_some hfirst
    have hgoesOn : (fun bank => (program.runLines (line :: back) bank).unrecorded) =
        fun bank => (program.run other bank).unrecorded := by
      funext reached
      rw [unrecorded_runLines_cons hlabel, unrecorded_run_of_event? hother]
    rw [unrecorded_run_of_event? hevent, runLines_append, Outcome.unrecorded_andThen,
      Outcome.unrecorded_andThen, hgoesOn]

/-- A listing with the label of `event_b` twice in the block of `event_a`. -/
def nestedText : String :=
  ".section data\n---\nevent_a\nadd ecx 1\nevent_b\nmov eco 65\nevent_b\nint 7\n"

/-- Of two labels in a block the first opens the block within. -/
theorem run_through_label_twice :
    let line := Line.ofText 5 "event_b"
    let block := [Line.ofText 4 "add ecx 1", line, Line.ofText 6 "mov eco 65",
      Line.ofText 7 "event_b", Line.ofText 8 "int 7"]
    ∃ program, (link (.empty 0) nestedText).result = .ok program ∧ program.IsLinked ∧
      program.event? "a" = some block ∧
      program.lines.find? (·.words.head? = some (Event.label "b")) = some line ∧ line ∈ block ∧
      ∃ front back, block = front ++ line :: back ∧ program.event? "b" = some back ∧
        ∀ bank, (program.run "a" bank).unrecorded =
          ((program.runLines front bank).andThen (program.run "b")).unrecorded := by
  intro line block
  have hlinks : (link (.empty 0) nestedText).result.isOk = true := by
    decide +kernel
  obtain ⟨program, hlink⟩ := exists_of_isOk hlinks
  have hlinked : program.IsLinked := ⟨0, [], _, hlink⟩
  have hlines := lines_of_link hlink
  have hevent : program.event? "a" = some block := by
    rw [event?, hlines]
    decide +kernel
  have hfirst : program.lines.find? (·.words.head? = some (Event.label "b")) = some line := by
    rw [hlines]
    decide +kernel
  have hline : line ∈ block := List.mem_cons_of_mem _ List.mem_cons_self
  obtain ⟨-, -, -, -, hthrough⟩ := run_through_label hlinked "a"
  exact ⟨program, hlink, hlinked, hevent, hfirst, hline,
    hthrough "b" block line hevent hfirst hline⟩

end Program

end ChannelAsm
