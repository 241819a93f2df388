import ChannelAsm.Text.Lines
import ChannelAsm.Text.Trim
import ChannelAsm.Text.Words
import Mathlib.Data.List.DropRight
import Mathlib.Data.List.TakeWhile

/-!
# What trimming leaves alone

A text is blanks, then what trimming leaves of it, then blanks, which is `exists_eq_trim`. So
trimming keeps the words of a text, and the characters it starts with when these are no blanks; it
does away with a carriage return that ends a line, and there is nothing left to trim afterwards. A
text of a single word is trimmed to that word, which is `trim_eq_of_words_eq_singleton`.
-/

namespace ChannelAsm.Text

variable {text lead trail start : List Char}

/-! ## Trimming -/

/-- Blanks behind a text are trimmed with those at its end. -/
theorem trimEnd_append (h : ∀ c ∈ trail, isBlank c = true) :
    trimEnd (text ++ trail) = trimEnd text := by
  have hreverse : ∀ c ∈ trail.reverse, isBlank c = true := by simpa using h
  rw [trimEnd, List.reverse_append, trimStart, List.dropWhile_append_of_pos hreverse]
  rfl

/-- Blanks behind a text do not matter to what trimming leaves. -/
theorem trim_append (h : ∀ c ∈ trail, isBlank c = true) : trim (text ++ trail) = trim text := by
  rw [trim, trim, trimStart, List.dropWhile_append]
  split
  · rename_i hempty
    have htrail : trail.dropWhile isBlank = [] := List.dropWhile_eq_nil_iff.mpr h
    rw [htrail, trimStart, List.isEmpty_iff.mp hempty]
  · exact trimEnd_append h

/-- Trimming starts from a text without leading blanks. -/
theorem trimStart_trim (text : List Char) : trimStart (trim text) = trim text := by
  -- What is left of the text is empty or starts where trimming the front has stopped.
  obtain ⟨rest, hrest⟩ : trim text <+: trimStart text := List.rdropWhile_prefix isBlank _
  have hhead := List.head?_dropWhile_not isBlank text
  rw [← trimStart, ← hrest] at hhead
  cases htrim : trim text with
  | nil => rfl
  | cons first others =>
      have hfirst : isBlank first = false := by simpa [htrim] using hhead
      simp [trimStart, hfirst]

/-- What trimming leaves does not start with a blank. -/
theorem not_isBlank_of_trim_eq_cons {first : Char} {rest : List Char}
    (h : trim text = first :: rest) : isBlank first = false := by
  have hstart := trimStart_trim text
  rw [h] at hstart
  simpa using List.dropWhile_eq_self_iff.mp hstart (Nat.zero_lt_succ _)

/-- There is nothing to trim where there are no blanks. -/
theorem trim_eq_self (h : ∀ c ∈ text, isBlank c = false) : trim text = text := by
  have hstart : trimStart text = text :=
    List.dropWhile_eq_self_iff.mpr fun hpos => by simpa using h _ (List.getElem_mem hpos)
  rw [trim, hstart]
  exact List.rdropWhile_eq_self_iff.mpr fun hne => by simpa using h _ (List.getLast_mem hne)

/-- There is nothing left to trim after trimming. -/
theorem trim_trim (text : List Char) : trim (trim text) = trim text := by
  rw [trim, trimStart_trim]
  exact List.rdropWhile_idempotent isBlank (trimStart text)

/-- A text is what trimming leaves of it, between blanks. -/
theorem exists_eq_trim (text : List Char) :
    ∃ lead trail, text = lead ++ (trim text ++ trail) ∧ (∀ c ∈ lead, isBlank c = true) ∧
      ∀ c ∈ trail, isBlank c = true := by
  refine ⟨text.takeWhile isBlank, (trimStart text).rtakeWhile isBlank, ?_, ?_, ?_⟩
  · show _ = _ ++ ((trimStart text).rdropWhile isBlank ++ _)
    rw [List.rdropWhile_append_rtakeWhile]
    exact List.takeWhile_append_dropWhile.symm
  · exact fun c hc => List.mem_takeWhile_imp hc
  · exact fun c hc => List.mem_rtakeWhile_imp hc

/-- Trimming leaves nothing of blanks only. -/
theorem trim_eq_nil_iff : trim text = [] ↔ text.all isBlank = true := by
  refine ⟨fun h => ?_, trim_eq_nil_of_all⟩
  obtain ⟨lead, trail, htext, hlead, htrail⟩ := exists_eq_trim text
  rw [htext, h, List.nil_append, List.all_append, Bool.and_eq_true]
  exact ⟨List.all_eq_true.mpr hlead, List.all_eq_true.mpr htrail⟩

/-- Trimming adds no character. -/
theorem mem_of_mem_trim {c : Char} (h : c ∈ trim text) : c ∈ text := by
  obtain ⟨lead, trail, htext, _, _⟩ := exists_eq_trim text
  rw [htext]
  simp [h]

/-- Blanks at the end of a text do not matter to whether it starts with characters that are none. -/
theorem isPrefixOf_append (hstart : ∀ c ∈ start, isBlank c = false)
    (htrail : ∀ c ∈ trail, isBlank c = true) (text : List Char) :
    start.isPrefixOf (text ++ trail) = start.isPrefixOf text := by
  induction start generalizing text with
  | nil => simp
  | cons first rest ih =>
      have hrest := ih fun c hc => hstart c (List.mem_cons_of_mem first hc)
      cases text with
      | cons other others => simp [List.isPrefixOf, hrest]
      | nil =>
          cases trail with
          | nil => rfl
          | cons blank blanks =>
              have hne : first ≠ blank := by
                rintro rfl
                have hfirst := hstart first List.mem_cons_self
                rw [htrail first List.mem_cons_self] at hfirst
                cases hfirst
              simp [List.isPrefixOf, hne]

/-- Trimming the end of a text keeps the characters it starts with, when these are no blanks. -/
theorem isPrefixOf_trim (hstart : ∀ c ∈ start, isBlank c = false) (text : List Char) :
    start.isPrefixOf (trim text) = start.isPrefixOf (trimStart text) := by
  have htrail : ∀ c ∈ (trimStart text).rtakeWhile isBlank, isBlank c = true :=
    fun c hc => List.mem_rtakeWhile_imp hc
  have happend : trim text ++ (trimStart text).rtakeWhile isBlank = trimStart text :=
    List.rdropWhile_append_rtakeWhile
  rw [← isPrefixOf_append hstart htrail, happend]

/-! ## Words -/

/-- A blank ends a word. -/
theorem words_append_cons {blank : Char} (h : isBlank blank = true) (before after : List Char) :
    words (before ++ blank :: after) = words before ++ words after := by
  rw [words, List.splitOnP_append_cons before after h, List.filter_append]
  rfl

/-- A blank in front of a text belongs to no word. -/
theorem words_cons {blank : Char} (h : isBlank blank = true) (after : List Char) :
    words (blank :: after) = words after :=
  words_append_cons h [] after

/-- Blanks in front of a text add no words. -/
theorem words_append_left (h : ∀ c ∈ lead, isBlank c = true) (text : List Char) :
    words (lead ++ text) = words text := by
  induction lead with
  | nil => rfl
  | cons first rest ih =>
      rw [List.cons_append, words_cons (h first List.mem_cons_self)]
      exact ih fun c hc => h c (List.mem_cons_of_mem first hc)

/-- Blanks behind a text add no words. -/
theorem words_append_right (h : ∀ c ∈ trail, isBlank c = true) (text : List Char) :
    words (text ++ trail) = words text := by
  cases trail with
  | nil => rw [List.append_nil]
  | cons first rest =>
      have hrest := words_append_left (fun c hc => h c (List.mem_cons_of_mem first hc)) []
      rw [List.append_nil] at hrest
      rw [words_append_cons (h first List.mem_cons_self), hrest]
      exact List.append_nil _

/-- Trimming keeps the words of a text. -/
theorem words_trim (text : List Char) : words (trim text) = words text := by
  obtain ⟨lead, trail, htext, hlead, htrail⟩ := exists_eq_trim text
  calc words (trim text) = words (trim text ++ trail) := (words_append_right htrail _).symm
    _ = words (lead ++ (trim text ++ trail)) := (words_append_left hlead _).symm
    _ = words text := by rw [← htext]

/-- A text that holds no blanks is a single word. -/
theorem words_eq_singleton (h : ∀ c ∈ text, isBlank c = false) (hne : text ≠ []) :
    words text = [text] := by
  rw [words, List.splitOnP_eq_singleton h]
  simp [hne]

/-- The first word of a text that does not start with a blank goes up to the first blank. -/
theorem words_eq_cons {first : Char} (h : isBlank first = false) (rest : List Char) :
    words (first :: rest) = (first :: rest).takeWhile (fun c => !isBlank c) ::
      words ((first :: rest).dropWhile fun c => !isBlank c) := by
  have hword : words ((first :: rest).takeWhile fun c => !isBlank c) =
      [(first :: rest).takeWhile fun c => !isBlank c] :=
    words_eq_singleton (fun c hc => by simpa using List.mem_takeWhile_imp hc) (by simp [h])
  have hsplit := List.takeWhile_append_dropWhile (p := fun c => !isBlank c) (l := first :: rest)
  cases hdrop : (first :: rest).dropWhile fun c => !isBlank c with
  | nil =>
      rw [hdrop, List.append_nil] at hsplit
      rwa [hsplit] at hword ⊢
  | cons blank others =>
      have hblank : isBlank blank = true := by
        simpa [hdrop] using List.head?_dropWhile_not (fun c => !isBlank c) (first :: rest)
      rw [hdrop] at hsplit
      rw [← hsplit, words_append_cons hblank, hsplit, hword, words_cons hblank]
      rfl

/-- A text that does not start with a blank starts with its first word. -/
theorem prefix_of_words_eq_cons {word : List Char} {others : List (List Char)}
    (h : words text = word :: others) (htext : trimStart text = text) : word <+: text := by
  cases text with
  | nil => cases h
  | cons first rest =>
      have hfirst : isBlank first = false := by
        simpa using List.dropWhile_eq_self_iff.mp htext (Nat.zero_lt_succ _)
      rw [words_eq_cons hfirst] at h
      obtain ⟨rfl, _⟩ := List.cons.inj h
      exact List.takeWhile_prefix _

/-- A text has no words exactly when there is nothing but blanks in it. -/
theorem words_eq_nil_iff : words text = [] ↔ text.all isBlank = true := by
  constructor
  · intro h
    rw [← words_trim] at h
    rw [← trim_eq_nil_iff]
    cases htrim : trim text with
    | nil => rfl
    | cons first rest =>
        rw [htrim, words_eq_cons (not_isBlank_of_trim_eq_cons htrim)] at h
        cases h
  · intro h
    rw [← List.append_nil text, words_append_left (List.all_eq_true.mp h)]
    rfl

/-- A text of a single word is that word between blanks. -/
theorem trim_eq_of_words_eq_singleton {word : List Char} (h : words text = [word]) :
    trim text = word := by
  have hword : ∀ c ∈ word, isBlank c = false :=
    not_isBlank_of_mem_words (h ▸ List.mem_singleton_self word)
  rw [← words_trim] at h
  cases htrim : trim text with
  | nil => rw [htrim] at h; cases h
  | cons first rest =>
      rw [htrim, words_eq_cons (not_isBlank_of_trim_eq_cons htrim), List.cons.injEq,
        words_eq_nil_iff, List.all_eq_true] at h
      obtain ⟨rfl, hrest⟩ := h
      -- Trimming has left nothing behind the word, as that would all be blank.
      have hagain := trim_trim text
      rw [htrim, ← List.takeWhile_append_dropWhile (p := fun c => !isBlank c) (l := first :: rest),
        trim_append hrest, trim_eq_self hword] at hagain
      rw [hagain]
      exact List.takeWhile_append_dropWhile.symm

/-! ## Carriage returns -/

/-- The carriage return at the end of a line is a blank at the end. -/
theorem exists_eq_dropReturn (line : List Char) :
    ∃ trail, line = dropReturn line ++ trail ∧ ∀ c ∈ trail, c = '\r' := by
  unfold dropReturn
  split
  · rename_i hlast
    obtain ⟨before, rfl⟩ := List.getLast?_eq_some_iff.mp hlast
    exact ⟨['\r'], by simp, by simp⟩
  · exact ⟨[], by simp, by simp⟩

/-- A carriage return at the end of a line is trimmed. -/
theorem trim_dropReturn (line : List Char) : trim (dropReturn line) = trim line := by
  obtain ⟨trail, hline, htrail⟩ := exists_eq_dropReturn line
  have hblank : ∀ c ∈ trail, isBlank c = true := by
    intro c hc
    rw [htrail c hc]
    decide
  conv_rhs => rw [hline]
  exact (trim_append hblank).symm

/-- A trimmed line does not end in a carriage return. -/
theorem dropReturn_trim (line : List Char) : dropReturn (trim line) = trim line := by
  refine if_neg fun hlast => ?_
  obtain ⟨before, hbefore⟩ := List.getLast?_eq_some_iff.mp hlast
  have htrim := trim_trim line
  rw [hbefore, trim_append (by simp; decide)] at htrim
  have hlength := congrArg List.length htrim
  obtain ⟨lead, trail, hsplit, _, _⟩ := exists_eq_trim before
  have hsplit := congrArg List.length hsplit
  simp only [List.length_append, List.length_cons, List.length_nil] at hlength hsplit
  omega

end ChannelAsm.Text
