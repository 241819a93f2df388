import ChannelAsm.Proofs.Source.Closing

/-!
# What cleaning emits

`Listing.Emits` is the rule by which code lines are emitted one after the other: a line goes out
as it is, behind a sentinel when it opens a section, a line before it has opened one, and the last
line that went out is not exactly a sentinel. By `Listing.clean_emits` the clean form of a source
is what the rule gives for the code lines of the source, closed at its end; every section line in
it but the first then directly follows a sentinel, and apart from sentinels nothing is added,
dropped or moved.
-/

namespace ChannelAsm.Listing

variable {line : List Char} {before written other emitted : List (List Char)}

/-! ## The rule -/

/-- The line starts, behind blanks, with the section marker. -/
def Opens (line : List Char) : Prop :=
  ∃ blanks rest, (∀ c ∈ blanks, Text.isBlank c = true) ∧
    line = blanks ++ (Line.sectionMarker.toList ++ rest)

/-- The line needs a sentinel in front of it: it opens a section, so does a line before it, and the
last line that is written is not exactly a sentinel. -/
structure Parts (before written : List (List Char)) (line : List Char) : Prop where
  opens : Opens line
  later : ∃ earlier ∈ before, Opens earlier
  apart : written.getLast? ≠ some sentinel

/-- The second row of lines is what has been emitted when the first has been gone through. -/
inductive Emits : List (List Char) → List (List Char) → Prop
  | nil : Emits [] []
  | plain {before written : List (List Char)} {line : List Char} :
      Emits before written → ¬ Parts before written line →
      Emits (before ++ [line]) (written ++ [line])
  | parted {before written : List (List Char)} {line : List Char} :
      Emits before written → Parts before written line →
      Emits (before ++ [line]) (written ++ [sentinel, line])

/-- Every line that opens a section directly follows a sentinel, unless none before it does. -/
def Parted (emitted : List (List Char)) : Prop :=
  ∀ front line back, emitted = front ++ line :: back → Opens line →
    (∃ earlier ∈ front, Opens earlier) → front.getLast? = some sentinel

/-- The headers are the lines that open a section. -/
theorem isHeader_iff : isHeader line = true ↔ Opens line := by
  constructor
  · intro h
    obtain ⟨rest, hrest⟩ := List.isPrefixOf_iff_prefix.mp h
    refine ⟨line.takeWhile Text.isBlank, rest, fun c hc => List.mem_takeWhile_imp hc, ?_⟩
    rw [hrest]
    exact List.takeWhile_append_dropWhile.symm
  · rintro ⟨blanks, rest, hblanks, rfl⟩
    -- The marker starts with a character that is not blank.
    have hstart : (Line.sectionMarker.toList ++ rest).dropWhile Text.isBlank =
        Line.sectionMarker.toList ++ rest :=
      rfl
    rw [isHeader, Text.trimStart, List.dropWhile_append_of_pos hblanks, hstart]
    exact List.isPrefixOf_iff_prefix.mpr (List.prefix_append _ rest)

/-- A sentinel opens no section. -/
theorem not_opens_sentinel : ¬ Opens sentinel := by
  rw [← isHeader_iff, isHeader_sentinel]
  exact Bool.false_ne_true

/-! ## What the rule gives -/

/-- The last line that was gone through is the last that is written, with a sentinel in front where
it needs one. -/
theorem emits_concat_iff :
    Emits (before ++ [line]) emitted ↔ ∃ written, Emits before written ∧
      (¬ Parts before written line ∧ emitted = written ++ [line] ∨
        Parts before written line ∧ emitted = written ++ [sentinel, line]) := by
  constructor
  · intro h
    generalize hlines : before ++ [line] = lines at h
    cases h with
    | nil => simp at hlines
    | plain hwritten hparts =>
        obtain ⟨rfl, rfl⟩ := List.append_singleton_inj.mp hlines
        exact ⟨_, hwritten, .inl ⟨hparts, rfl⟩⟩
    | parted hwritten hparts =>
        obtain ⟨rfl, rfl⟩ := List.append_singleton_inj.mp hlines
        exact ⟨_, hwritten, .inr ⟨hparts, rfl⟩⟩
  · rintro ⟨written, hwritten, ⟨hparts, rfl⟩ | ⟨hparts, rfl⟩⟩
    · exact .plain hwritten hparts
    · exact .parted hwritten hparts

/-- The rule leaves no choice. -/
theorem Emits.unique (h : Emits before written) (hother : Emits before other) :
    other = written := by
  induction h generalizing other with
  | nil =>
      generalize hlines : ([] : List (List Char)) = lines at hother
      cases hother <;> simp_all
  | plain _ hparts ih =>
      obtain ⟨front, hfront, ⟨_, rfl⟩ | ⟨hother, _⟩⟩ := emits_concat_iff.mp hother
      · rw [ih hfront]
      · exact absurd (ih hfront ▸ hother) hparts
  | parted _ hparts ih =>
      obtain ⟨front, hfront, ⟨hother, _⟩ | ⟨_, rfl⟩⟩ := emits_concat_iff.mp hother
      · exact absurd hparts (ih hfront ▸ hother)
      · rw [ih hfront]

/-- The section lines that are written are those that were gone through. -/
theorem Emits.exists_opens_iff (h : Emits before written) :
    (∃ line ∈ written, Opens line) ↔ ∃ line ∈ before, Opens line := by
  induction h with
  | nil => rfl
  | plain _ _ ih => simp only [List.mem_append, or_and_right, exists_or, ih]
  | parted _ _ ih => simp [or_and_right, exists_or, ih, not_opens_sentinel]

/-- Apart from sentinels, what is written is what was gone through. -/
theorem Emits.filter_eq (h : Emits before written) :
    written.filter (· ≠ sentinel) = before.filter (· ≠ sentinel) := by
  induction h with
  | nil => rfl
  | plain _ _ ih => rw [List.filter_append, List.filter_append, ih]
  | parted _ _ ih =>
      rw [List.filter_append, List.filter_append, ih]
      rfl

/-! ## Parted sections -/

/-- A further line keeps sections parted when it follows a sentinel or opens no further section. -/
theorem Parted.concat (h : Parted written)
    (hline : Opens line → (∃ earlier ∈ written, Opens earlier) →
      written.getLast? = some sentinel) : Parted (written ++ [line]) := by
  intro front other back hsplit hother hearlier
  rcases List.eq_nil_or_concat back with rfl | ⟨back, last, rfl⟩
  · obtain ⟨rfl, rfl⟩ := List.append_singleton_inj.mp hsplit
    exact hline hother hearlier
  · rw [List.concat_eq_append, ← List.cons_append, ← List.append_assoc] at hsplit
    obtain ⟨hsplit, _⟩ := List.append_singleton_inj.mp hsplit
    exact h front other back hsplit hother hearlier

/-- A sentinel behind parted sections keeps them parted. -/
theorem Parted.concat_sentinel (h : Parted written) : Parted (written ++ [sentinel]) :=
  h.concat fun hopens => absurd hopens not_opens_sentinel

/-- The rule parts sections. -/
theorem Emits.parted_written (h : Emits before written) : Parted written := by
  induction h with
  | nil => simp [Parted]
  | plain hwritten hparts ih =>
      refine ih.concat fun hopens hearlier => ?_
      by_contra hapart
      exact hparts ⟨hopens, hwritten.exists_opens_iff.mp hearlier, hapart⟩
  | parted _ _ ih =>
      rw [List.append_cons]
      exact ih.concat_sentinel.concat fun _ _ => List.getLast?_concat

/-- Sections stay parted when they are closed. -/
theorem Parted.closed (h : Parted written) : Parted (closed written) := by
  unfold Listing.closed
  split
  · exact h
  · exact h.concat_sentinel

/-! ## Cleaning follows the rule -/

variable {opened known : Bool}

/-- Closing sections puts a sentinel in front of the lines that need one. -/
theorem parts_iff (hopened : opened = true ↔ ∃ earlier ∈ before, Opens earlier)
    (hknown : known = true ↔ written.getLast? = some sentinel) :
    (isHeader line && opened && !known) = true ↔ Parts before written line := by
  rw [Bool.and_eq_true, Bool.and_eq_true, isHeader_iff, hopened, Bool.not_eq_true',
    ← Bool.not_eq_true, hknown]
  exact ⟨fun ⟨⟨hopens, hlater⟩, hapart⟩ => ⟨hopens, hlater, hapart⟩,
    fun h => ⟨⟨h.opens, h.later⟩, h.apart⟩⟩

/-- Closing the sections of the lines that are still to come goes on by the rule. -/
theorem Emits.exists_append_separate (h : Emits before written)
    (hopened : opened = true ↔ ∃ earlier ∈ before, Opens earlier)
    (hknown : known = true ↔ written.getLast? = some sentinel) (lines : List (List Char)) :
    ∃ final, Emits (before ++ lines) final ∧
      Listing.closed final = written ++ separate opened known lines := by
  induction lines generalizing before written opened known with
  | nil =>
      refine ⟨written, by rwa [List.append_nil], ?_⟩
      cases known <;> simp_all [separate, Listing.closed]
  | cons line rest ih =>
      have hstep : (opened || isHeader line) = true ↔
          ∃ earlier ∈ before ++ [line], Opens earlier := by
        simp [hopened, isHeader_iff, or_and_right, exists_or]
      have hlast (front : List (List Char)) :
          (line == sentinel) = true ↔ (front ++ [line]).getLast? = some sentinel := by
        simp
      have hguard : (isHeader line && opened && !known) = true ↔ Parts before written line :=
        parts_iff hopened hknown
      rw [List.append_cons]
      by_cases hparts : Parts before written line
      · have hemits : Emits (before ++ [line]) (written ++ [sentinel] ++ [line]) := by
          rw [← List.append_cons]
          exact h.parted hparts
        obtain ⟨final, hfinal, hclosed⟩ := ih hemits hstep (hlast _)
        refine ⟨final, hfinal, ?_⟩
        rw [hclosed, separate_cons_of_true (hguard.mpr hparts)]
        simp
      · obtain ⟨final, hfinal, hclosed⟩ := ih (h.plain hparts) hstep (hlast _)
        refine ⟨final, hfinal, ?_⟩
        rw [hclosed, separate_cons_of_false (by simpa using mt hguard.mp hparts)]
        simp

/-- The clean lines of a source are what the rule gives for its code lines, closed. -/
theorem exists_emits_cleanLines (source : List Char) :
    ∃ written, Emits (retained source) written ∧ closed written = cleanLines source := by
  rw [cleanLines_eq]
  exact Emits.nil.exists_append_separate (by simp) (by simp) (retained source)

/-- The clean form of a source is its code lines in order, each emitted by the rule, and closed at
the end. It has no comments and no blank lines, it ends in a sentinel, its sections are parted, and
it is the code of the source apart from sentinels. -/
theorem clean_emits (source : String) :
    ∃ written, (∀ other, Emits (retained source.toList) other ↔ other = written) ∧
      clean source = String.ofList (Text.unlines (closed written)) ∧
      (∀ line ∈ closed written,
        '\n' ∉ line ∧ ';' ∉ line ∧ ∃ c ∈ line, Text.isBlank c = false) ∧
      (∃ front, clean source = front ++ "---\n") ∧ Parted (closed written) ∧
      (closed written).filter (· ≠ sentinel) =
        (retained source.toList).filter (· ≠ sentinel) := by
  obtain ⟨written, hwritten, hclosed⟩ := exists_emits_cleanLines source.toList
  refine ⟨written, fun other => ⟨hwritten.unique, fun h => h ▸ hwritten⟩, ?_, ?_, ?_,
    hwritten.parted_written.closed, ?_⟩
  · rw [hclosed]
    rfl
  · intro line hline
    have hcode : IsCode line := isCode_of_mem_cleanLines (hclosed ▸ hline)
    exact ⟨hcode.newline, hcode.comment, by simpa using hcode.blank⟩
  · obtain ⟨front, hfront⟩ := exists_closed_eq written
    refine ⟨String.ofList (Text.unlines front), ?_⟩
    rw [clean, ← hclosed, hfront, Text.unlines, List.flatMap_append, String.ofList_append]
    rfl
  · rw [closed]
    split
    · exact hwritten.filter_eq
    · rw [List.filter_append, hwritten.filter_eq]
      simp

/-- A comment does not hide a header, and a sentinel that is there already is enough. -/
example : clean ".section a ;---\n.section b\n---\n.section c" =
    ".section a \n---\n.section b\n---\n.section c\n---\n" :=
  rfl

end ChannelAsm.Listing
