import ChannelAsm.Proofs.Image.Contents
import ChannelAsm.Proofs.Program.Linking

/-!
# What operands mean in a linked program

A linked program reads its operands from a flat memory. `values_eq_denote` says that what it reads
is what the entries of its data section mean without one: a numeral stands for itself, and any
other word for the values of the first entry of that name. `values_link` states this for a text,
from the lines of its data section on.
-/

namespace ChannelAsm

/-- A word that spells a hexadecimal operand is `0x` and its digits. -/
theorem Operand.eq_of_ofToken_hexadecimal {token digits : String}
    (h : ofToken token = .hexadecimal digits) : "0x" ++ digits = token := by
  unfold ofToken at h
  split at h
  · rename_i rest hlist
    cases h
    rw [← String.toList_inj, String.toList_append, hlist, String.toList_ofList,
      String.toList_ofList]
    rfl
  · split at h <;> cases h

/-- A word that spells a decimal operand is its digits. -/
theorem Operand.eq_of_ofToken_decimal {token digits : String}
    (h : ofToken token = .decimal digits) : digits = token := by
  unfold ofToken at h
  split at h
  · cases h
  · split at h <;> cases h
    rfl

/-- A word that spells a symbol is its name. -/
theorem Operand.eq_of_ofToken_symbol {token name : String} (h : ofToken token = .symbol name) :
    name = token := by
  unfold ofToken at h
  split at h
  · cases h
  · split at h <;> cases h
    rfl

/-- What a word means that is no symbol does not depend on the entries. -/
theorem Entry.denote_of_ne_symbol {token : String} (h : Operand.ofToken token ≠ .symbol token)
    (entries others : List Entry) : denote entries token = denote others token := by
  unfold denote
  cases hoperand : Operand.ofToken token with
  | hexadecimal digits => rfl
  | decimal digits => rfl
  | symbol name =>
      obtain rfl := Operand.eq_of_ofToken_symbol hoperand
      exact absurd hoperand h

namespace Program

/-- `program.IsLinked` says that the program comes from linking some text, in a fresh memory of some
capacity in which lines may have been declared before. -/
def IsLinked (program : Program) : Prop :=
  ∃ capacity lines text, (link ((Layout.empty capacity).attempt lines) text).result = .ok program

/-- Linking succeeds only with the lines of the text and with the layout that its declarations
leave when all of them succeed in order. -/
theorem link_eq_ok {layout : Layout} {text : String} {program : Program}
    (h : (link layout text).result = .ok program) :
    ∃ declared reports final,
      declarations? (Line.ofListing text) = some declared ∧
      Outcome.Chain (fun line layout => layout.addLine line) declared layout reports final ∧
      program = ⟨Line.ofListing text, final.memory, final.symbols⟩ := by
  have hlinks := links_link layout text
  generalize link layout text = linked at h hlinks
  cases hlinks with
  | headless | refused => cases h
  | laid hbehind hchain =>
      cases h
      exact ⟨_, _, _, declarations?_eq_some_iff_behind.mpr hbehind, hchain, rfl⟩

variable {program : Program} {layout : Layout} {capacity : Nat} {entries : List Entry}

/-- A program that is linked from a text has its lines. -/
theorem lines_of_link {text : String} (h : (link layout text).result = .ok program) :
    program.lines = Line.ofListing text := by
  obtain ⟨_, _, _, _, _, rfl⟩ := link_eq_ok h
  rfl

/-- An operand stands for what the entries in the program's memory say that it means. -/
theorem values_eq_denote (h : layout.Holds capacity entries)
    (hmemory : program.memory = layout.memory) (hsymbols : program.symbols = layout.symbols)
    (token : String) : program.values token = Entry.denote entries token := by
  unfold values Entry.denote
  cases hoperand : Operand.ofToken token with
  | hexadecimal digits =>
      simp only [Operand.value?, Entry.numeral, Operand.eq_of_ofToken_hexadecimal hoperand]
      cases Text.int32? 16 digits.toList <;> rfl
  | decimal digits =>
      simp only [Operand.value?, Entry.numeral, Operand.eq_of_ofToken_decimal hoperand]
      cases Text.int32? 10 token.toList <;> rfl
  | symbol name =>
      rw [hsymbols, hmemory, Operand.value?]
      rcases h.get?_symbols token with ⟨hget, hnamed⟩ | ⟨before, entry, after, rfl, hnamed, hget⟩
      · simp only [hget, hnamed]
      · simp only [hget, hnamed]
        exact h.read_symbol

/-- `HasEntries lines entries` says that the declarations of the first data section, which all
spell one, make these entries in order. -/
def HasEntries (lines : List Line) (entries : List Entry) : Prop :=
  ∃ declared declarations,
    Behind (fun line => line.sectionName? = some dataSection) lines declared ∧
    List.Forall₂ (fun line declaration => Declaration.Spells line.words declaration) declared
      declarations ∧
    Entry.extend? [] declarations = some entries

/-- Lines have the entries of one data section only. -/
theorem HasEntries.unique {lines : List Line} {other : List Entry} (h : HasEntries lines entries)
    (hother : HasEntries lines other) : other = entries := by
  obtain ⟨declared, declarations, hdeclared, hspells, hentries⟩ := h
  obtain ⟨declared', declarations', hdeclared', hspells', hentries'⟩ := hother
  -- The lines determine the stretch, the stretch its declarations, and these the entries.
  rw [← declarations?_eq_some_iff] at hdeclared hdeclared'
  obtain rfl : declared = declared' := Option.some.inj (hdeclared.symm.trans hdeclared')
  obtain rfl : declarations = declarations' := Declaration.spells_unique hspells hspells'
  exact Option.some.inj (hentries'.symm.trans hentries)

/-- A program that is linked in a layout that holds entries reads what entries mean that start
with those. -/
theorem exists_entries_of_link {text : String} (h : layout.Holds capacity entries)
    (hlink : (link layout text).result = .ok program) :
    ∃ declared declarations made,
      Behind (fun line => line.sectionName? = some dataSection) (Line.ofListing text) declared ∧
      List.Forall₂ (fun line declaration => Declaration.Spells line.words declaration) declared
        declarations ∧
      Entry.extend? entries declarations = some made ∧
      ∀ token, program.values token = Entry.denote made token := by
  obtain ⟨declared, reports, final, hdeclared, hchain, rfl⟩ := link_eq_ok hlink
  obtain ⟨declarations, made, hspells, hmade, hholds⟩ := h.chain hchain
  exact ⟨declared, declarations, made, declarations?_eq_some_iff.mp hdeclared, hspells, hmade,
    values_eq_denote hholds rfl rfl⟩

/-- The lines of a linked program are those of a listing. -/
theorem IsLinked.exists_listing (h : program.IsLinked) :
    ∃ text, program.lines = Line.ofListing text := by
  obtain ⟨capacity, lines, text, hlink⟩ := h
  exact ⟨text, lines_of_link hlink⟩

/-- The operands of a linked program mean what some entries say. -/
theorem IsLinked.exists_entries (h : program.IsLinked) :
    ∃ entries, ∀ token, program.values token = Entry.denote entries token := by
  obtain ⟨capacity, lines, text, hlink⟩ := h
  obtain ⟨_, entries, _, _, hholds⟩ := (Layout.holds_empty capacity).attempt lines
  obtain ⟨_, _, made, _, _, _, hvalues⟩ := exists_entries_of_link hholds hlink
  exact ⟨made, hvalues⟩

/-- A text that links has the entries of its first data section, and the program reads every
operand as they say: a numeral as itself, whatever is declared, and any other word as the values of
the first entry of that name, whatever is declared behind it. No operand is ever out of memory. -/
theorem values_link {text : String} (h : (link (.empty capacity) text).result = .ok program) :
    ∃ entries, (∀ other, HasEntries (Line.ofListing text) other ↔ other = entries) ∧
      (∀ token, program.values token = Entry.denote entries token) ∧
      (∀ token others, Operand.ofToken token ≠ .symbol token →
        program.values token = Entry.denote others token) ∧
      (∀ earlier later name entry, entries = earlier ++ later →
        Entry.named? earlier name = some entry → Operand.ofToken name = .symbol name →
          program.values name = .ok entry.values) ∧
      ∀ token cells address size,
        program.values token ≠ .error (.outOfMemory cells address size) := by
  obtain ⟨declared, declarations, entries, hdeclared, hspells, hmade, hvalues⟩ :=
    exists_entries_of_link (Layout.holds_empty capacity) h
  have hentries : HasEntries (Line.ofListing text) entries :=
    ⟨declared, declarations, hdeclared, hspells, hmade⟩
  refine ⟨entries, fun other => ⟨hentries.unique, ?_⟩, hvalues, ?_, ?_, ?_⟩
  · intro hother
    rw [hother]
    exact hentries
  · intro token others hnumeral
    rw [hvalues]
    exact Entry.denote_of_ne_symbol hnumeral entries others
  · intro earlier later name entry hsplit hnamed hsymbol
    rw [hvalues, Entry.denote, hsymbol, hsplit]
    simp only [Entry.named?_append_of_eq_some hnamed later]
  · intro token cells address size hfault
    rw [hvalues] at hfault
    rcases Entry.denote_eq_error hfault with hother | hother <;> cases hother

/-- A name that is declared twice keeps the values of its first declaration, also for a length
that is taken of it. -/
theorem values_link_redeclared :
    ∃ program, (link (.empty 9)
        ".section data\nbuf db 1 2\nbuf db 3\nn equ $ - buf\n").result = .ok program ∧
      ∃ entries, (∀ other, HasEntries (Line.ofListing
          ".section data\nbuf db 1 2\nbuf db 3\nn equ $ - buf\n") other ↔ other = entries) ∧
        (∀ token, program.values token = Entry.denote entries token) ∧
        (∀ token others, Operand.ofToken token ≠ .symbol token →
          program.values token = Entry.denote others token) ∧
        (∀ earlier later name entry, entries = earlier ++ later →
          Entry.named? earlier name = some entry → Operand.ofToken name = .symbol name →
            program.values name = .ok entry.values) ∧
        ∀ token cells address size,
          program.values token ≠ .error (.outOfMemory cells address size) := by
  have hlinks : (link (.empty 9)
      ".section data\nbuf db 1 2\nbuf db 3\nn equ $ - buf\n").result.isOk = true := by
    decide +kernel
  obtain ⟨program, hlink⟩ := exists_of_isOk hlinks
  exact ⟨program, hlink, values_link hlink⟩

end Program

end ChannelAsm
