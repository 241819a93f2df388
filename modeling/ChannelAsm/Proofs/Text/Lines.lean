import ChannelAsm.Proofs.Text.Trim

/-!
# Lines of a text

`Spells` says that a text holds a row of lines, each with an end of its own; `spells_lines` says so
of a text without carriage returns and the lines that are read from it. Lines that are written have
line feeds between them only, so by `unlines_inj` different lines are written differently.
-/

namespace ChannelAsm.Text

variable {line text : List Char} {written others : List (List Char)} {c : Char}

/-! ## Carriage returns at the end -/

/-- Nothing is dropped from a line exactly when it does not end in a carriage return. -/
theorem dropReturn_eq_self_iff : dropReturn line = line ↔ line.getLast? ≠ some '\r' := by
  constructor
  · intro h hlast
    rw [dropReturn, if_pos hlast] at h
    obtain ⟨before, rfl⟩ := List.getLast?_eq_some_iff.mp hlast
    have hlength := congrArg List.length h
    simp at hlength
  · exact fun hlast => if_neg hlast

/-- A line without carriage returns has none to drop. -/
theorem dropReturn_of_not_mem (h : '\r' ∉ line) : dropReturn line = line :=
  dropReturn_eq_self_iff.mpr fun hlast => h (List.mem_of_getLast? hlast)

/-- The carriage return at the end of a line is dropped. -/
theorem dropReturn_concat (line : List Char) : dropReturn (line ++ ['\r']) = line := by
  simp [dropReturn]

/-- A line that ends in another character stays as it is. -/
theorem dropReturn_concat_of_ne (hc : c ≠ '\r') (line : List Char) :
    dropReturn (line ++ [c]) = line ++ [c] :=
  dropReturn_eq_self_iff.mpr (by simpa using hc)

/-- The carriage return at the end of a line stands behind any other character. -/
theorem dropReturn_append_cons (hc : c ≠ '\r') (line rest : List Char) :
    dropReturn (line ++ c :: rest) = line ++ c :: dropReturn rest := by
  rcases List.eq_nil_or_concat rest with rfl | ⟨front, last, rfl⟩
  · exact dropReturn_concat_of_ne hc line
  · rw [List.concat_eq_append, ← List.cons_append, ← List.append_assoc]
    by_cases hlast : last = '\r'
    · rw [hlast, dropReturn_concat, dropReturn_concat]
    · rw [dropReturn_concat_of_ne hlast, dropReturn_concat_of_ne hlast, List.append_assoc]
      rfl

/-! ## Lines that are read -/

/-- No line of a text has a line feed. -/
theorem not_mem_newline_of_mem_lines (h : line ∈ lines text) : '\n' ∉ line := by
  have hpiece {piece : List Char} (hmem : piece ∈ text.splitOn '\n') : '\n' ∉ piece := by
    intro hnewline
    simpa using eq_false_of_mem_splitOnP hmem '\n' hnewline
  rcases List.mem_append.mp h with h | h
  · obtain ⟨piece, hmem, rfl⟩ := List.mem_map.mp h
    obtain ⟨trail, htrail, _⟩ := exists_eq_dropReturn piece
    intro hnewline
    apply hpiece (List.dropLast_subset _ hmem)
    rw [htrail]
    exact List.mem_append_left trail hnewline
  · obtain ⟨hlast, _⟩ := List.mem_filter.mp h
    exact hpiece (List.mem_of_getLast? (Option.mem_toList.mp hlast))

/-- A text without line feeds is a line, unless it is empty. -/
theorem lines_of_not_mem (h : '\n' ∉ text) : lines text = [text].filter (· ≠ []) := by
  have hpieces : text.splitOn '\n' = [text] :=
    List.splitOnP_eq_singleton fun c hc => by
      simpa using fun heq : c = '\n' => h (heq ▸ hc)
  rw [lines, hpieces]
  rfl

/-- The text holds the lines one after the other. Each is ended by a line feed, or by a carriage
return and a line feed; the last may have no end. -/
inductive Spells : List (List Char) → List Char → Prop
  | nil : Spells [] []
  | last {line : List Char} : '\n' ∉ line → Spells [line] line
  | feed {line text : List Char} {lines : List (List Char)} :
      '\n' ∉ line → Spells lines text → Spells (line :: lines) (line ++ '\n' :: text)
  | returnFeed {line text : List Char} {lines : List (List Char)} :
      '\n' ∉ line → Spells lines text → Spells (line :: lines) (line ++ '\r' :: '\n' :: text)

/-- A text without carriage returns holds its lines. -/
theorem spells_lines (text : List Char) (h : '\r' ∉ text) : Spells (lines text) text := by
  by_cases hfeed : '\n' ∈ text
  · obtain ⟨line, rest, htext, hline⟩ := List.eq_append_cons_of_mem hfeed
    have hlength : rest.length < text.length := by
      simp only [htext, List.length_append, List.length_cons]
      omega
    have hreturn : '\r' ∉ line ∧ '\r' ∉ rest := by simpa [htext] using h
    rw [htext, lines_append_newline hline, dropReturn_of_not_mem hreturn.1]
    exact .feed hline (spells_lines rest hreturn.2)
  · rw [lines_of_not_mem hfeed]
    by_cases hnil : text = []
    · rw [hnil]
      exact .nil
    · simpa [hnil] using Spells.last hfeed
termination_by text.length

/-- The characters of the lines are characters of the text. -/
theorem Spells.mem (h : Spells written text) (hline : line ∈ written) (hc : c ∈ line) :
    c ∈ text := by
  induction h with
  | nil => cases hline
  | last => rwa [← List.mem_singleton.mp hline]
  | feed _ _ ih | returnFeed _ _ ih =>
      rcases List.mem_cons.mp hline with rfl | hline
      · exact List.mem_append_left _ hc
      · exact List.mem_append_right _ (by simp [ih hline])

/-! ## Lines that are written -/

/-- Written lines are the pieces between the line feeds, but for the empty one at the end. -/
theorem splitOn_unlines (h : ∀ line ∈ written, '\n' ∉ line) :
    (unlines written).splitOn '\n' = written ++ [[]] := by
  induction written with
  | nil => rfl
  | cons line rest ih =>
      have hrest := ih fun other hother => h other (List.mem_cons_of_mem line hother)
      rw [unlines, List.flatMap_cons, List.append_assoc, List.singleton_append,
        List.splitOn_append_cons_self_of_not_mem (h line List.mem_cons_self)]
      exact congrArg (line :: ·) hrest

/-- Different lines are written differently. -/
theorem unlines_inj (hwritten : ∀ line ∈ written, '\n' ∉ line)
    (hothers : ∀ line ∈ others, '\n' ∉ line) :
    unlines written = unlines others ↔ written = others := by
  refine ⟨fun h => ?_, congrArg unlines⟩
  have hsplit := congrArg (List.splitOn '\n') h
  rw [splitOn_unlines hwritten, splitOn_unlines hothers] at hsplit
  exact List.append_cancel_right hsplit

end ChannelAsm.Text
