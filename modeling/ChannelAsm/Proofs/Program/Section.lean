import ChannelAsm.Program.Build
import Mathlib.Data.List.TakeWhile

/-!
# Sections and blocks

`Program.Behind` is the shape of a stretch of lines that something opens: it starts behind the
first line that does and goes up to a sentinel or the end. The declarations of a program are such a
stretch by `declarations?_eq_some_iff`, and the block of an event by `event?_eq_some_iff`.
`Program.stretch?` finds it, and by `map_stretch?` it sees no more of a line than whether it opens
the stretch and whether it is a sentinel. The lines of a listing are numbered from one, which is
`Line.number_of_getElem?`.
-/

namespace ChannelAsm

/-- A line of a listing has the number of its place, counted from one. -/
theorem Line.number_of_getElem? {text : String} {index : Nat} {line : Line}
    (h : (Line.ofListing text)[index]? = some line) : line.number = index + 1 := by
  rw [Line.ofListing, List.getElem?_mapIdx] at h
  obtain ⟨_, _, rfl⟩ := Option.map_eq_some_iff.mp h
  rfl

namespace Program

/-- `Behind opens lines stretch` says that the stretch stands behind the first line that opens
something, holds no sentinel, and is followed by a sentinel or by nothing. -/
def Behind (opens : Line → Prop) (lines stretch : List Line) : Prop :=
  ∃ before first rest, lines = before ++ first :: (stretch ++ rest) ∧
    (∀ line ∈ before, ¬ opens line) ∧ opens first ∧
    (∀ line ∈ stretch, line.isSentinel = false) ∧
    ∀ line, rest.head? = some line → line.isSentinel = true

/-- Lines without a sentinel are the block of themselves and what follows a sentinel. -/
theorem block_of_head? {stretch rest : List Line}
    (hstretch : ∀ line ∈ stretch, line.isSentinel = false)
    (hrest : ∀ line, rest.head? = some line → line.isSentinel = true) :
    block (stretch ++ rest) = stretch := by
  rw [block, List.takeWhile_append_of_pos (by simpa using hstretch)]
  cases rest with
  | nil => exact List.append_nil stretch
  | cons line rest => simp [hrest line rfl]

/-- A stretch is found by dropping lines up to the first that opens it and taking those before the
next sentinel. -/
theorem behind_iff {opens : Line → Prop} [DecidablePred opens] {lines stretch : List Line} :
    Behind opens lines stretch ↔
      ∃ first following, lines.dropWhile (fun line => ¬ opens line) = first :: following ∧
        block following = stretch := by
  constructor
  · intro h
    obtain ⟨before, first, rest, rfl, hbefore, hfirst, hstretch, hrest⟩ := h
    refine ⟨first, stretch ++ rest, ?_, ?_⟩
    · rw [List.dropWhile_append_of_pos (by simpa using hbefore), List.dropWhile_cons_of_neg]
      simpa using hfirst
    · exact block_of_head? hstretch hrest
  · intro h
    obtain ⟨first, following, hdrop, rfl⟩ := h
    refine ⟨lines.takeWhile fun line => ¬ opens line, first,
      following.dropWhile fun line => !line.isSentinel, ?_, ?_, ?_, ?_, ?_⟩
    · rw [block, List.takeWhile_append_dropWhile, ← hdrop, List.takeWhile_append_dropWhile]
    · intro line hline
      simpa using List.mem_takeWhile_imp hline
    · have hfirst := List.head?_dropWhile_not (fun line => decide ¬ opens line) lines
      rw [hdrop] at hfirst
      simpa using hfirst
    · intro line hline
      simpa using List.mem_takeWhile_imp hline
    · intro line hline
      have hsentinel := List.head?_dropWhile_not (fun line : Line => !line.isSentinel) following
      rw [hline] at hsentinel
      simpa using hsentinel

/-- The declarations among lines stand behind the first header of a data section. -/
theorem declarations?_eq_some_iff {lines declared : List Line} :
    declarations? lines = some declared ↔
      Behind (fun line => line.sectionName? = some dataSection) lines declared := by
  rw [behind_iff, declarations?]
  cases lines.dropWhile fun line => line.sectionName? ≠ some dataSection <;> simp [and_assoc]

/-- The block of an event stands behind the first line with its label. -/
theorem event?_eq_some_iff {program : Program} {name : String} {stretch : List Line} :
    program.event? name = some stretch ↔
      Behind (fun line => line.label? = some (Event.label name)) program.lines stretch := by
  rw [behind_iff, event?]
  cases program.lines.dropWhile fun line => line.label? ≠ some (Event.label name) <;>
    simp [and_assoc]

/-- A name has no block when its label is no event's. -/
theorem event?_eq_none_iff {program : Program} {name : String} :
    program.event? name = none ↔ Event.label name ∉ program.events := by
  have hnone : program.event? name = none ↔
      program.lines.dropWhile (fun line => line.label? ≠ some (Event.label name)) = [] := by
    unfold event?
    split <;> simp_all
  rw [hnone, List.dropWhile_eq_nil_iff, events, List.mem_filterMap]
  simp

/-- Every line of a stretch is one of the lines. -/
theorem Behind.mem {opens : Line → Prop} {lines stretch : List Line}
    (h : Behind opens lines stretch) {line : Line} (hline : line ∈ stretch) : line ∈ lines := by
  obtain ⟨before, first, rest, rfl, _⟩ := h
  simp [hline]

/-! ## Stretches -/

section

variable (opens : Line → Prop) [DecidablePred opens]

/-- What stands behind the first line that opens something, up to a sentinel. -/
def stretch? (lines : List Line) : Option (List Line) :=
  match lines.dropWhile fun line => ¬ opens line with
  | [] => none
  | _ :: following => some (block following)

variable {opens} {line last : Line} {front back lines others : List Line}

/-- A line that opens something is followed by what it opens. -/
theorem stretch?_cons_of_pos (h : opens line) (rest : List Line) :
    stretch? opens (line :: rest) = some (block rest) := by
  simp [stretch?, h]

/-- A line that opens nothing is passed over. -/
theorem stretch?_cons_of_neg (h : ¬ opens line) (rest : List Line) :
    stretch? opens (line :: rest) = stretch? opens rest := by
  simp [stretch?, h]

/-- Lines in front that open nothing do not matter. -/
theorem stretch?_append_left (h : ∀ line ∈ front, ¬ opens line) (back : List Line) :
    stretch? opens (front ++ back) = stretch? opens back := by
  rw [stretch?, List.dropWhile_append_of_pos (by simpa using h)]
  rfl

/-- Lines that open nothing have nothing that is opened. -/
theorem stretch?_eq_none (h : ∀ line ∈ lines, ¬ opens line) : stretch? opens lines = none := by
  have happend := stretch?_append_left h []
  rwa [List.append_nil] at happend

/-- A block that reaches a sentinel ends there. -/
theorem block_append (h : last.isSentinel = true) (front back : List Line) :
    block (front ++ [last] ++ back) = block (front ++ [last]) := by
  simp [block, List.takeWhile_append, h]

/-- Lines behind a sentinel that open nothing do not matter. -/
theorem stretch?_append_right (hlast : last.isSentinel = true) (hopens : ¬ opens last)
    (hback : ∀ line ∈ back, ¬ opens line) (front : List Line) :
    stretch? opens (front ++ [last] ++ back) = stretch? opens (front ++ [last]) := by
  induction front with
  | nil =>
      show stretch? opens (last :: back) = stretch? opens [last]
      rw [stretch?_cons_of_neg hopens, stretch?_cons_of_neg hopens, stretch?_eq_none hback]
      rfl
  | cons first front ih =>
      show stretch? opens (first :: (front ++ [last] ++ back)) =
        stretch? opens (first :: (front ++ [last]))
      by_cases hfirst : opens first
      · rw [stretch?_cons_of_pos hfirst, stretch?_cons_of_pos hfirst, block_append hlast]
      · rw [stretch?_cons_of_neg hfirst, stretch?_cons_of_neg hfirst, ih]

section

variable {Key : Type} {key : Line → Key}
  (hsentinel : ∀ line other, key line = key other → line.isSentinel = other.isSentinel)
include hsentinel

/-- Lines of the same keys have blocks of the same keys, when the key tells the sentinels. -/
theorem map_block (h : lines.map key = others.map key) :
    (block lines).map key = (block others).map key := by
  induction lines generalizing others with
  | nil => rw [List.map_eq_nil_iff.mp h.symm]
  | cons line rest ih =>
      obtain ⟨other, more, rfl, hline, hrest⟩ := List.map_eq_cons_iff.mp h.symm
      rw [block, block, List.takeWhile_cons, List.takeWhile_cons, hsentinel other line hline]
      split
      · rw [List.map_cons, List.map_cons, hline]
        exact congrArg _ (ih hrest.symm)
      · rfl

/-- Lines of the same keys have stretches of the same keys, when the key also tells the lines that
open them. -/
theorem map_stretch? (hopens : ∀ line other, key line = key other → (opens line ↔ opens other))
    (h : lines.map key = others.map key) :
    (stretch? opens lines).map (List.map key) = (stretch? opens others).map (List.map key) := by
  induction lines generalizing others with
  | nil => rw [List.map_eq_nil_iff.mp h.symm]
  | cons line rest ih =>
      obtain ⟨other, more, rfl, hline, hrest⟩ := List.map_eq_cons_iff.mp h.symm
      by_cases hfirst : opens line
      · have hother := (hopens other line hline).mpr hfirst
        rw [stretch?_cons_of_pos hfirst, stretch?_cons_of_pos hother, Option.map_some,
          Option.map_some, map_block hsentinel hrest.symm]
      · have hother := mt (hopens other line hline).mp hfirst
        rw [stretch?_cons_of_neg hfirst, stretch?_cons_of_neg hother, ih hrest.symm]

end

end

/-- The declarations among lines are what a header of a data section opens. -/
theorem declarations?_eq_stretch? (lines : List Line) :
    declarations? lines = stretch? (fun line => line.sectionName? = some dataSection) lines :=
  rfl

/-- The block of an event is what its label opens. -/
theorem event?_eq_stretch? (program : Program) (name : String) :
    program.event? name =
      stretch? (fun line => line.label? = some (Event.label name)) program.lines :=
  rfl

end Program

end ChannelAsm
