import ChannelAsm.Source.Listing

/-!
# Cleaning in two steps

Cleaning reads a source once. It could as well go through it twice: first `retained` takes the code
of each line that has any, and then `separate` puts the sentinels between sections. By
`cleanLines_eq` this gives the same lines. The reason is `isHeader_code`, that a comment never makes
or hides a header, so that headers can be told when the comments are gone.
-/

namespace ChannelAsm.Listing

/-- The code lines of a source: every line cut to its code, without the blank ones. -/
def retained (source : List Char) : List (List Char) :=
  ((Text.lines source).map code).filter fun line => !line.all Text.isBlank

/-- Close the sections of a row of code lines. `opened` says that a header came before, `closed`
that the line before is exactly a sentinel. -/
def separate (opened closed : Bool) : List (List Char) → List (List Char)
  | [] => if closed then [] else [sentinel]
  | line :: rest =>
      let following := line :: separate (opened || isHeader line) (line == sentinel) rest
      if isHeader line && opened && !closed then sentinel :: following else following

/-! ## Headers and comments -/

/-- Cutting after dropping leading characters is dropping them after cutting, when no character is
dropped that would be cut at. -/
theorem dropWhile_takeWhile {keep skip : Char → Bool} (h : ∀ c, skip c = true → keep c = true)
    (line : List Char) :
    (line.takeWhile keep).dropWhile skip = (line.dropWhile skip).takeWhile keep := by
  induction line with
  | nil => rfl
  | cons first rest ih =>
      by_cases hskip : skip first = true
      · simp [h first hskip, hskip, ih]
      · by_cases hkeep : keep first = true <;> simp [hskip, hkeep]

/-- Cutting a line does not change whether it starts with characters that it is not cut at. -/
theorem isPrefixOf_takeWhile {keep : Char → Bool} {start : List Char}
    (h : ∀ c ∈ start, keep c = true) (line : List Char) :
    start.isPrefixOf (line.takeWhile keep) = start.isPrefixOf line := by
  induction start generalizing line with
  | nil => simp
  | cons first rest ih =>
      cases line with
      | nil => rfl
      | cons other others =>
          by_cases hfirst : first = other
          · subst hfirst
            simp [h first List.mem_cons_self, List.isPrefixOf,
              ih fun c hc => h c (List.mem_cons_of_mem _ hc)]
          · have hbeq : (first == other) = false := beq_eq_false_iff_ne.mpr hfirst
            by_cases hkeep : keep other = true <;> simp [hkeep, hbeq, List.isPrefixOf]

/-- A comment never makes or hides a header. -/
theorem isHeader_code (line : List Char) : isHeader (code line) = isHeader line := by
  have hblank : ∀ c, Text.isBlank c = true → decide (c ≠ ';') = true := by
    intro c hc
    have hne : c ≠ ';' := by
      rintro rfl
      revert hc
      decide
    simpa using hne
  unfold isHeader code Text.trimStart
  rw [dropWhile_takeWhile hblank, isPrefixOf_takeWhile]
  simp [Line.sectionMarker]

/-- A line without code is no header. -/
theorem isHeader_of_blank {line : List Char} (h : (code line).all Text.isBlank = true) :
    isHeader line = false := by
  rw [← isHeader_code, isHeader, Text.trimStart_eq_nil_of_all h]
  decide

/-! ## The lines that are written -/

namespace Cleaned

variable {cleaned : Cleaned} {line : List Char}

/-- The last line that has been written is exactly a sentinel. -/
def closed (cleaned : Cleaned) : Bool :=
  cleaned.lines.back? == some sentinel

/-- A sentinel is written unless the line before is one. -/
theorem toList_close (cleaned : Cleaned) :
    cleaned.close.lines.toList =
      cleaned.lines.toList ++ if cleaned.closed then [] else [sentinel] := by
  by_cases hback : cleaned.lines.back? = some sentinel
  · have hclosed : cleaned.closed = true := beq_iff_eq.mpr hback
    rw [close, if_pos hback, if_pos hclosed, List.append_nil]
  · have hclosed : ¬ cleaned.closed = true := fun h => hback (beq_iff_eq.mp h)
    rw [close, if_neg hback, if_neg hclosed, Array.toList_push]

/-- A line without code leaves all as it was. -/
theorem read_of_blank (h : (code line).all Text.isBlank = true) : cleaned.read line = cleaned := by
  rw [read, isHeader_of_blank h, if_neg Bool.false_ne_true, if_pos h]

/-- A line with code is written, behind what ends the section before it when it is a header. -/
theorem read_of_code (cleaned : Cleaned) (h : (code line).all Text.isBlank = false) :
    (cleaned.read line).opened = (cleaned.opened || isHeader line) ∧
      (cleaned.read line).closed = (code line == sentinel) ∧
      (cleaned.read line).lines.toList = cleaned.lines.toList ++
        (if isHeader line && cleaned.opened && !cleaned.closed then [sentinel] else []) ++
        [code line] := by
  cases hheader : isHeader line with
  | false =>
      rw [read, hheader, if_neg Bool.false_ne_true, if_neg (by simp [h])]
      simp [closed]
  | true =>
      rw [read, hheader, if_pos rfl, if_neg (by simp [h])]
      cases hopened : cleaned.opened with
      | false => simp [openSection, closed, hopened]
      | true => simp [openSection, closed, hopened, toList_close]

end Cleaned

/-- The code of a line is written first, behind a sentinel when it is a header that needs one. -/
theorem separate_cons (opened closed : Bool) (line : List Char) (rest : List (List Char)) :
    separate opened closed (line :: rest) =
      (if isHeader line && opened && !closed then [sentinel] else []) ++
        line :: separate (opened || isHeader line) (line == sentinel) rest := by
  rw [separate]
  split <;> rfl

/-- What is written when more lines are read is what the two steps make of them. -/
theorem foldl_read (cleaned : Cleaned) (lines : List (List Char)) :
    (lines.foldl Cleaned.read cleaned).close.lines.toList =
      cleaned.lines.toList ++ separate cleaned.opened cleaned.closed
        ((lines.map code).filter fun line => !line.all Text.isBlank) := by
  induction lines generalizing cleaned with
  | nil => exact cleaned.toList_close
  | cons line rest ih =>
      rw [List.foldl_cons, ih, List.map_cons]
      cases hblank : (code line).all Text.isBlank with
      | true => rw [Cleaned.read_of_blank hblank, List.filter_cons_of_neg (by simp [hblank])]
      | false =>
          obtain ⟨hopened, hclosed, hlines⟩ := cleaned.read_of_code hblank
          rw [List.filter_cons_of_pos (by simp [hblank]), separate_cons, hopened, hclosed, hlines,
            isHeader_code]
          simp only [List.append_assoc, List.singleton_append]

/-- Reading a source once gives what taking the code of its lines and then closing its sections
does. -/
theorem cleanLines_eq (source : List Char) :
    cleanLines source = separate false false (retained source) :=
  foldl_read {} (Text.lines source)

end ChannelAsm.Listing
