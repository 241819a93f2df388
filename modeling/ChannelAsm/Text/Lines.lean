/-!
# Lines

A text is a sequence of lines, each ended by a line feed; a carriage return directly before that
line feed belongs to the line's end. Characters after the last line feed form one more line,
which has no end and so keeps a trailing carriage return. `unlines` writes lines back.
-/

namespace ChannelAsm.Text

/-- A line's characters without one carriage return at their end. -/
def dropReturn (line : List Char) : List Char :=
  if line.getLast? = some '\r' then line.dropLast else line

/-- The lines of a text, without their ends. -/
def lines (text : List Char) : List (List Char) :=
  let pieces := text.splitOn '\n'
  pieces.dropLast.map dropReturn ++ pieces.getLast?.toList.filter (· ≠ [])

/-- The lines one after the other, each ended by a line feed. -/
def unlines (lines : List (List Char)) : List Char :=
  lines.flatMap (· ++ ['\n'])

/-- A text that starts with a complete line has that line first. -/
theorem lines_append_newline {line rest : List Char} (h : '\n' ∉ line) :
    lines (line ++ '\n' :: rest) = dropReturn line :: lines rest := by
  obtain ⟨head, tail, hpieces⟩ := List.exists_cons_of_ne_nil (List.splitOn_ne_nil '\n' rest)
  simp [lines, List.splitOn_append_cons_self_of_not_mem h, hpieces]

/-- Writing lines and reading them back drops at most the carriage return at the end of each. -/
theorem lines_unlines {written : List (List Char)} (h : ∀ line ∈ written, '\n' ∉ line) :
    lines (unlines written) = written.map dropReturn := by
  induction written with
  | nil => rfl
  | cons line rest ih =>
      have hrest := ih fun other hother => h other (List.mem_cons_of_mem _ hother)
      have hline := h line List.mem_cons_self
      simp only [unlines, List.flatMap_cons, List.append_assoc, List.cons_append,
        List.nil_append, List.map_cons] at hrest ⊢
      rw [lines_append_newline hline, hrest]

end ChannelAsm.Text
