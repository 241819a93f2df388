import ChannelAsm.Proofs.Source.Emission

/-!
# Sentinels behind sentinels

Cleaning puts no sentinel behind a line that is exactly one, while the linker takes a line for a
sentinel when trimming leaves one of it. `Listing.Inserts` says where cleaning inserts sentinels,
and `Listing.keeps_or_inserts_of_cleanLines` that there are no others but those of the source. By
`Listing.sentinels_agree_iff` an inserted sentinel follows one of the linker's exactly where blanks
stand around a sentinel of the source that ends a section.
-/

namespace ChannelAsm.Listing

variable {line : List Char} {before after lines front written : List (List Char)}

/-! ## Sentinels between blanks -/

/-- The line is a sentinel with blanks around it. -/
def Padded (line : List Char) : Prop :=
  ∃ lead trail, (∀ c ∈ lead ++ trail, Text.isBlank c = true) ∧ lead ++ trail ≠ [] ∧
    line = lead ++ (sentinel ++ trail)

/-- The linker takes a padded sentinel for a sentinel, and it is not exactly one. -/
theorem padded_iff : Padded line ↔ Text.trim line = sentinel ∧ line ≠ sentinel := by
  constructor
  · rintro ⟨lead, trail, hblanks, hne, rfl⟩
    obtain ⟨hlead, htrail⟩ := List.forall_mem_append.mp hblanks
    constructor
    · refine Text.trim_eq_of_words_eq_singleton ?_
      rw [Text.words_append_left hlead, Text.words_append_right htrail]
      decide
    · intro heq
      have hlength := congrArg List.length heq
      simp only [List.length_append] at hlength
      exact hne (List.length_eq_zero_iff.mp (by rw [List.length_append]; omega))
  · rintro ⟨htrim, hne⟩
    obtain ⟨lead, trail, hline, hlead, htrail⟩ := Text.exists_eq_trim line
    rw [htrim] at hline
    refine ⟨lead, trail, List.forall_mem_append.mpr ⟨hlead, htrail⟩, fun hnil => hne ?_, hline⟩
    obtain ⟨rfl, rfl⟩ := List.append_eq_nil_iff.mp hnil
    rw [hline, List.append_nil]
    rfl

/-- A padded sentinel opens no section. -/
theorem Padded.not_opens (h : Padded line) : ¬ Opens line := by
  rw [← isHeader_iff, ← isHeader_trim, (padded_iff.mp h).1, isHeader_sentinel]
  exact Bool.false_ne_true

/-! ## Sentinels that are inserted -/

/-- `Inserts lines front` says that a sentinel is inserted when lines are cleaned, and that `front`
is what has been emitted by then. A line that opens a further section comes next, or the end. -/
inductive Inserts (lines : List (List Char)) : List (List Char) → Prop
  | between {before after front : List (List Char)} {next : List Char} :
      lines = before ++ next :: after → Emits before front → Parts before front next →
      Inserts lines front
  | ending {front : List (List Char)} :
      Emits lines front → front.getLast? ≠ some sentinel → Inserts lines front

/-- `Keeps lines front line` says that the line is one of those that are cleaned, and that `front`
is what has been emitted when its turn comes, with the sentinel that is inserted for its sake. -/
def Keeps (lines front : List (List Char)) (line : List Char) : Prop :=
  ∃ before after written, lines = before ++ line :: after ∧ Emits before written ∧
    (¬ Parts before written line ∧ front = written ∨
      Parts before written line ∧ front = written ++ [sentinel])

/-- A line within a row with one more at the end is that one or stands before it. -/
theorem cases_of_concat_eq {last : List Char} {back : List (List Char)}
    (h : written ++ [last] = front ++ line :: back) :
    (front = written ∧ line = last) ∨ ∃ rest, written = front ++ line :: rest := by
  rcases List.eq_nil_or_concat back with rfl | ⟨rest, other, rfl⟩
  · obtain ⟨rfl, rfl⟩ := List.append_singleton_inj.mp h
    exact .inl ⟨rfl, rfl⟩
  · rw [List.concat_eq_append, ← List.cons_append, ← List.append_assoc] at h
    exact .inr ⟨rest, (List.append_singleton_inj.mp h).1⟩

/-- The rule emits no line but those that are gone through and the sentinels that it inserts,
whatever lines are still to come. -/
theorem Emits.keeps_or_inserts (h : Emits before written) {back : List (List Char)}
    (hsplit : written = front ++ line :: back) (after : List (List Char)) :
    Keeps (before ++ after) front line ∨
      line = sentinel ∧ Inserts (before ++ after) front := by
  induction h generalizing back after with
  | nil => simp at hsplit
  | @plain before written next hwritten hparts ih =>
      rw [List.append_assoc]
      rcases cases_of_concat_eq hsplit with ⟨rfl, rfl⟩ | ⟨rest, hrest⟩
      · exact .inl ⟨before, after, front, rfl, hwritten, .inl ⟨hparts, rfl⟩⟩
      · exact ih hrest ([next] ++ after)
  | @parted before written next hwritten hparts ih =>
      rw [List.append_cons] at hsplit
      rw [List.append_assoc]
      rcases cases_of_concat_eq hsplit with ⟨rfl, rfl⟩ | ⟨rest, hrest⟩
      · exact .inl ⟨before, after, written, rfl, hwritten, .inr ⟨hparts, rfl⟩⟩
      · rcases cases_of_concat_eq hrest with ⟨rfl, rfl⟩ | ⟨rest, hrest⟩
        · exact .inr ⟨rfl, .between rfl hwritten hparts⟩
        · exact ih hrest ([next] ++ after)

/-- Every clean line is one of the source, or a sentinel that is inserted. -/
theorem keeps_or_inserts_of_cleanLines {source : List Char} {back : List (List Char)}
    (h : cleanLines source = front ++ line :: back) :
    Keeps (retained source) front line ∨ line = sentinel ∧ Inserts (retained source) front := by
  obtain ⟨written, hwritten, hclosed⟩ := exists_emits_cleanLines source
  have hrule {back : List (List Char)} (hsplit : written = front ++ line :: back) :
      Keeps (retained source) front line ∨ line = sentinel ∧ Inserts (retained source) front := by
    simpa using hwritten.keeps_or_inserts hsplit []
  rw [h, closed] at hclosed
  split at hclosed
  · exact hrule hclosed
  · rename_i hlast
    rcases cases_of_concat_eq hclosed with ⟨rfl, rfl⟩ | ⟨rest, hrest⟩
    · exact .inr ⟨rfl, .ending hwritten hlast⟩
    · exact hrule hrest

/-- What is emitted stays when more lines are gone through. -/
theorem Emits.exists_append (h : Emits before front) (after : List (List Char)) :
    ∃ rest, Emits (before ++ after) (front ++ rest) := by
  induction after using List.reverseRecOn with
  | nil => exact ⟨[], by simpa using h⟩
  | append_singleton after line ih =>
      obtain ⟨rest, hrest⟩ := ih
      rw [← List.append_assoc]
      by_cases hparts : Parts (before ++ after) (front ++ rest) line
      · exact ⟨rest ++ [sentinel, line], by simpa using hrest.parted hparts⟩
      · exact ⟨rest ++ [line], by simpa using hrest.plain hparts⟩

/-- A sentinel that is inserted stands in the clean form where it is inserted. -/
theorem Inserts.exists_cleanLines_eq {source : List Char} (h : Inserts (retained source) front) :
    ∃ back, cleanLines source = front ++ sentinel :: back := by
  obtain ⟨written, hwritten, hclosed⟩ := exists_emits_cleanLines source
  rw [← hclosed, closed]
  cases h with
  | between hlines hfront hparts =>
      obtain ⟨rest, hrest⟩ := (hfront.parted hparts).exists_append _
      rw [← List.append_cons, ← hlines] at hrest
      obtain rfl := hrest.unique hwritten
      split
      · exact ⟨_, List.append_assoc ..⟩
      · exact ⟨_, by rw [List.append_assoc, List.append_assoc]; rfl⟩
  | ending hfront hlast =>
      obtain rfl := hwritten.unique hfront
      rw [if_neg hlast]
      exact ⟨[], rfl⟩

/-! ## Where the linker sees two sentinels -/

/-- A section ends between the lines: nothing comes after, or a line that opens a section, and so
does a line before. -/
def EndsSection (before after : List (List Char)) : Prop :=
  after = [] ∨ ∃ next rest, after = next :: rest ∧ Opens next ∧ ∃ earlier ∈ before, Opens earlier

/-- No sentinel that is inserted directly follows a line that is a sentinel to the linker. -/
def SentinelsAgree (source : String) : Prop :=
  ∀ front line number, Inserts (retained source.toList) (front ++ [line]) →
    (Line.ofText number (String.ofList line)).isSentinel = false

/-- The last line that is emitted is the last that was gone through. -/
theorem Emits.exists_concat (h : Emits lines (front ++ [line])) :
    ∃ before, lines = before ++ [line] := by
  generalize hwritten : front ++ [line] = written at h
  cases h with
  | nil => simp at hwritten
  | @plain before written next _ _ =>
      obtain ⟨rfl, rfl⟩ := List.append_singleton_inj.mp hwritten
      exact ⟨before, rfl⟩
  | @parted before written next _ _ =>
      rw [List.append_cons written] at hwritten
      obtain ⟨rfl, rfl⟩ := List.append_singleton_inj.mp hwritten
      exact ⟨before, rfl⟩

/-- A sentinel is inserted behind a line that is not exactly one where the line ends a section. -/
theorem exists_inserts_iff :
    (∃ front, Inserts lines (front ++ [line])) ↔ ∃ before after,
      lines = before ++ line :: after ∧ EndsSection (before ++ [line]) after ∧ line ≠ sentinel := by
  constructor
  · rintro ⟨front, hinserts⟩
    cases hinserts with
    | @between before after _ next hlines hfront hparts =>
        obtain ⟨before, rfl⟩ := hfront.exists_concat
        refine ⟨before, next :: after, by simpa using hlines,
          .inr ⟨next, after, rfl, hparts.opens, hparts.later⟩, fun heq => hparts.apart ?_⟩
        rw [List.getLast?_concat, heq]
    | ending hfront hlast =>
        obtain ⟨before, rfl⟩ := hfront.exists_concat
        refine ⟨before, [], rfl, .inl rfl, fun heq => hlast ?_⟩
        rw [List.getLast?_concat, heq]
  · rintro ⟨before, after, rfl, hends, hne⟩
    obtain ⟨written, hwritten⟩ := Emits.nil.exists_append (before ++ [line])
    obtain ⟨front, rfl⟩ : ∃ front, written = front ++ [line] := by
      obtain ⟨early, -, ⟨-, h⟩ | ⟨-, h⟩⟩ := emits_concat_iff.mp hwritten
      · exact ⟨early, h⟩
      · exact ⟨early ++ [sentinel], by rw [← List.append_cons]; exact h⟩
    have hlast : (front ++ [line]).getLast? ≠ some sentinel := by
      rw [List.getLast?_concat]
      exact fun heq => hne (Option.some.inj heq)
    refine ⟨front, ?_⟩
    rcases hends with rfl | ⟨next, rest, rfl, hopens, hlater⟩
    · exact .ending hwritten hlast
    · exact .between (List.append_cons ..) hwritten ⟨hopens, hlater, hlast⟩

/-- Every line of the clean form is one of the source or a sentinel that is inserted. None of these
sentinels directly follows a line that the linker takes for a sentinel, unless a section of the
source ends in a sentinel with blanks around it. -/
theorem sentinels_agree_iff (source : String) :
    (∀ front, Inserts (retained source.toList) front →
      ∃ back, cleanLines source.toList = front ++ sentinel :: back) ∧
    (∀ front line back, cleanLines source.toList = front ++ line :: back →
      Keeps (retained source.toList) front line ∨
        line = sentinel ∧ Inserts (retained source.toList) front) ∧
    (SentinelsAgree source ↔ ∀ before line after,
      retained source.toList = before ++ line :: after → EndsSection before after →
        ¬ Padded line) := by
  refine ⟨fun _ h => h.exists_cleanLines_eq, fun _ _ _ => keeps_or_inserts_of_cleanLines, ?_⟩
  constructor
  · intro hagree before line after hlines hends hpadded
    obtain ⟨htrim, hne⟩ := padded_iff.mp hpadded
    have hends : EndsSection (before ++ [line]) after :=
      hends.imp_right fun ⟨next, rest, hafter, hopens, earlier, hearlier, hopened⟩ =>
        ⟨next, rest, hafter, hopens, earlier, List.mem_append_left _ hearlier, hopened⟩
    obtain ⟨front, hinserts⟩ := exists_inserts_iff.mpr ⟨before, after, hlines, hends, hne⟩
    have hsentinel := (Line.isSentinel_ofText_iff_trim 0 line).mpr htrim
    rw [hagree front line 0 hinserts] at hsentinel
    cases hsentinel
  · intro hplain front line number hinserts
    obtain ⟨before, after, hlines, hends, hne⟩ := exists_inserts_iff.mp ⟨front, hinserts⟩
    by_contra hsentinel
    rw [Bool.not_eq_false, Line.isSentinel_ofText_iff_trim] at hsentinel
    have hpadded : Padded line := padded_iff.mpr ⟨hsentinel, hne⟩
    refine hplain before line after hlines ?_ hpadded
    -- The padded sentinel itself opens no section, so a line before it has.
    refine hends.imp_right ?_
    rintro ⟨next, rest, hafter, hopens, earlier, hearlier, hopened⟩
    rcases List.mem_append.mp hearlier with hearlier | hearlier
    · exact ⟨next, rest, hafter, hopens, earlier, hearlier, hopened⟩
    · rw [List.mem_singleton.mp hearlier] at hopened
      exact absurd hopened hpadded.not_opens

/-- A source whose data section is ended by a sentinel with a comment behind it. -/
def remarkedSource : String :=
  ".section data\nx db 1\n--- ; end of data\n.section text\nevent_init\nint 0\n---\n"

/-- The blank in front of the comment makes cleaning insert a second sentinel. -/
theorem not_sentinelsAgree_remarked :
    clean remarkedSource =
      ".section data\nx db 1\n--- \n---\n.section text\nevent_init\nint 0\n---\n" ∧
      ¬ SentinelsAgree remarkedSource := by
  refine ⟨rfl, fun hagree => ?_⟩
  have hlines : retained remarkedSource.toList =
      [".section data".toList, "x db 1".toList] ++ "--- ".toList ::
        [".section text".toList, "event_init".toList, "int 0".toList, sentinel] :=
    rfl
  have hends : EndsSection ([".section data".toList, "x db 1".toList] ++ ["--- ".toList])
      [".section text".toList, "event_init".toList, "int 0".toList, sentinel] :=
    .inr ⟨_, _, rfl, isHeader_iff.mp (by decide), ".section data".toList, by simp,
      isHeader_iff.mp (by decide)⟩
  obtain ⟨front, hinserts⟩ := exists_inserts_iff.mpr ⟨_, _, hlines, hends, by decide⟩
  have hsentinel := hagree front _ 3 hinserts
  revert hsentinel
  decide

end ChannelAsm.Listing
