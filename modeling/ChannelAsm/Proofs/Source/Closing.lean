import ChannelAsm.Proofs.Source.Listing

/-!
# Sections of a clean listing

Cleaning closes what it keeps of the lines under a header with a sentinel, unless they end in one,
which gives `Listing.closed`. So by `Listing.cleanLines_sections` the clean form of a source of two
sections is one closed section behind the other, whatever the lines under their headers hold.
-/

namespace ChannelAsm.Listing

variable {line header other : List Char} {lines body : List (List Char)}

/-- The first word of the code of a line is the label of an event. -/
def opensEvent (line : List Char) : Bool :=
  (Text.words (code line)).head?.any fun word => Event.isLabel (String.ofList word)

/-- Lines with a sentinel behind them, unless the last is exactly a sentinel. -/
def closed (lines : List (List Char)) : List (List Char) :=
  if lines.getLast? = some sentinel then lines else lines ++ [sentinel]

/-! ## The lines that are kept -/

/-- A carriage return at the end of a line does not matter to what trimming leaves of its code. -/
theorem trim_code_dropReturn (line : List Char) :
    Text.trim (code (Text.dropReturn line)) = Text.trim (code line) := by
  obtain ⟨trail, hline, htrail⟩ := Text.exists_eq_dropReturn line
  have hblank : ∀ c ∈ trail.takeWhile (· ≠ ';'), Text.isBlank c = true := by
    intro c hc
    rw [htrail c ((List.takeWhile_sublist _).mem hc)]
    decide
  conv_rhs => rw [hline, code, List.takeWhile_append]
  split
  · -- There is no comment before the carriage return.
    rename_i hlength
    have hall : code (Text.dropReturn line) = Text.dropReturn line :=
      (List.takeWhile_prefix _).eq_of_length hlength
    rw [hall, Text.trim_append hblank]
  · rfl

/-- What is kept of two rows of lines is kept of the one and then of the other. -/
theorem kept_append (lines others : List (List Char)) :
    kept (lines ++ others) = kept lines ++ kept others := by
  simp [kept]

/-- What is kept of a line is its code, put differently at the end at most. -/
theorem exists_of_mem_kept (h : line ∈ kept lines) :
    ∃ uncut ∈ lines, line = code (Text.dropReturn uncut) ∧
      Text.trim line = Text.trim (code uncut) := by
  obtain ⟨uncut, huncut, rfl⟩ := List.mem_map.mp (List.mem_filter.mp h).1
  exact ⟨uncut, huncut, rfl, trim_code_dropReturn uncut⟩

/-- What is kept of lines without a header has none. -/
theorem isHeader_of_mem_kept (hlines : ∀ line ∈ lines, isHeader line = false)
    (h : line ∈ kept lines) : isHeader line = false := by
  obtain ⟨uncut, huncut, rfl, _⟩ := exists_of_mem_kept h
  rw [isHeader_code, isHeader_dropReturn]
  exact hlines uncut huncut

/-- What is kept has the words of the code. -/
theorem exists_words_of_mem_kept (h : line ∈ kept lines) :
    ∃ uncut ∈ lines, Text.words line = Text.words (code uncut) := by
  obtain ⟨uncut, huncut, _, htrim⟩ := exists_of_mem_kept h
  exact ⟨uncut, huncut, by rw [← Text.words_trim, htrim, Text.words_trim]⟩

/-! ## Sections -/

/-- A closed section ends in a sentinel. -/
theorem exists_closed_eq (lines : List (List Char)) :
    ∃ front, closed lines = front ++ [sentinel] := by
  unfold closed
  split
  · rename_i hlast
    exact List.getLast?_eq_some_iff.mp hlast
  · exact ⟨lines, rfl⟩

/-- Closing a section adds no line but a sentinel. -/
theorem mem_of_mem_closed (h : line ∈ closed lines) : line ∈ lines ∨ line = sentinel := by
  unfold closed at h
  split at h
  · exact .inl h
  · simpa using h

/-- Lines that are no headers stand as they are. Whether the last of them is a sentinel matters to
what follows. -/
theorem separate_append (hbody : ∀ line ∈ body, isHeader line = false) (opened known : Bool)
    (rest : List (List Char)) :
    separate opened known (body ++ rest) =
      body ++ separate opened ((body.getLast?.map (· == sentinel)).getD known) rest := by
  induction body generalizing known with
  | nil => rfl
  | cons line body ih =>
      have hline := hbody line List.mem_cons_self
      have hrest := ih fun other hother => hbody other (List.mem_cons_of_mem line hother)
      rw [List.cons_append, separate_cons_of_false (by simp [hline]), hline, Bool.or_false, hrest,
        List.getLast?_cons, Option.map_some, Option.getD_some, Option.getD_map]
      rfl

/-- The lines under a header are closed before another header, and at the end. -/
theorem separate_section (hbody : ∀ line ∈ body, isHeader line = false)
    (hrest : lines = [] ∨ ∃ header rest, lines = header :: rest ∧ isHeader header = true) :
    separate true false (body ++ lines) = closed body ++ separate true true lines := by
  have hknown : (body.getLast?.map (· == sentinel)).getD false =
      decide (body.getLast? = some sentinel) := by
    cases body.getLast? with
    | none => rfl
    | some last => by_cases hlast : last = sentinel <;> simp [hlast]
  rw [separate_append hbody, hknown, closed]
  by_cases hlast : body.getLast? = some sentinel
  · simp [hlast]
  · rcases hrest with rfl | ⟨header, rest, rfl, hheader⟩
    · simp [hlast, separate]
    · simp [hlast, separate, hheader]

/-- The clean form of two sections is one behind the other, both closed. -/
theorem separate_sections (hheader : isHeader header = true) (hother : isHeader other = true)
    (hlines : ∀ line ∈ lines, isHeader line = false)
    (hbody : ∀ line ∈ body, isHeader line = false) :
    separate false false (header :: (lines ++ other :: body)) =
      header :: closed lines ++ other :: closed body := by
  have hne {header : List Char} (hheader : isHeader header = true) :
      (header == sentinel) = false := by
    refine beq_eq_false_iff_ne.mpr ?_
    rintro rfl
    rw [isHeader_sentinel] at hheader
    cases hheader
  have hlast := separate_section hbody (.inl rfl)
  rw [List.append_nil] at hlast
  rw [separate_cons_of_false (by simp), hheader, hne hheader, Bool.false_or,
    separate_section hlines (.inr ⟨other, body, rfl, hother⟩), separate_cons_of_false (by simp),
    hne hother, Bool.true_or, hlast]
  simp [separate]

/-- The line opens a section and is kept as it is. -/
structure IsTitle (header : List Char) : Prop where
  newline : '\n' ∉ header
  isHeader_eq : isHeader header = true
  kept_eq : kept [header] = [header]

/-- The clean form of a source of two sections. -/
theorem cleanLines_sections (hheader : IsTitle header) (hother : IsTitle other)
    (hnewline : ∀ line ∈ lines ++ body, '\n' ∉ line)
    (hlines : ∀ line ∈ lines ++ body, isHeader line = false) :
    cleanLines (Text.unlines (header :: (lines ++ other :: body))) =
      header :: closed (kept lines) ++ other :: closed (kept body) := by
  have hfeed : ∀ line ∈ header :: (lines ++ other :: body), '\n' ∉ line := by
    intro line hline
    simp only [List.mem_cons, List.mem_append] at hline hnewline
    rcases hline with rfl | hline | rfl | hline
    · exact hheader.newline
    · exact hnewline line (.inl hline)
    · exact hother.newline
    · exact hnewline line (.inr hline)
  have hretained : retained (Text.unlines (header :: (lines ++ other :: body))) =
      header :: (kept lines ++ other :: kept body) := by
    rw [retained_unlines hfeed]
    show kept ([header] ++ (lines ++ ([other] ++ body))) = _
    rw [kept_append, kept_append, kept_append, hheader.kept_eq, hother.kept_eq]
    rfl
  obtain ⟨hlines, hbody⟩ := List.forall_mem_append.mp hlines
  rw [cleanLines_eq, hretained]
  exact separate_sections hheader.isHeader_eq hother.isHeader_eq
    (fun _ => isHeader_of_mem_kept hlines) fun _ => isHeader_of_mem_kept hbody

end ChannelAsm.Listing
