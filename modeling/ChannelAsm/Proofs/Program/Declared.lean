import ChannelAsm.Proofs.Program.Meaning

/-!
# The declarations of a program

`Program.DataSection` says which declarations a text makes, and `Program.Declares` which a linked
program has been given, those of earlier texts included. The first of a name decides what the name
stands for: the values of a block by `Program.Declares.values_block`, and by
`Program.Declares.values_lengthOf` the number of values of the name that is measured.
-/

namespace ChannelAsm.Program

/-- The lines of the first data section of the text are these, and each spells a declaration. -/
structure DataSection (text : String) (declared : List Line) (declarations : List Declaration) :
    Prop where
  behind : Behind Line.OpensData (Line.ofListing text) declared
  spells : List.Forall₂ (fun line declaration => Declaration.Spells line.words declaration) declared
    declarations

/-- `program.Declares declarations` says that the program is linked from a text, in a memory that is
fresh or has taken up lines before, and that these are all declarations which it has been given:
those that the earlier lines spell which succeeded, and then those of the text. -/
def Declares (program : Program) (declarations : List Declaration) : Prop :=
  ∃ capacity lines text earlier declared own,
    (link ((Layout.empty capacity).attempt lines) text).result = .ok program ∧
    List.Forall₂ (fun line declaration => Declaration.Spells line.words declaration)
      ((Layout.empty capacity).taken lines) earlier ∧
    DataSection text declared own ∧ declarations = earlier ++ own

variable {program : Program} {declarations : List Declaration} {name target : String}
  {values : List Int32}

/-- The programs that are linked are those that have been given some declarations. -/
theorem isLinked_iff_declares :
    program.IsLinked ↔ ∃ declarations, program.Declares declarations := by
  constructor
  · intro h
    obtain ⟨capacity, lines, text, hlink⟩ := h
    obtain ⟨earlier, entries, htaken, _, hholds⟩ := (Layout.holds_empty capacity).attempt lines
    obtain ⟨declared, own, _, hdeclared, hspells, _⟩ := exists_entries_of_link hholds hlink
    rw [← declarations?_eq_some_iff, declarations?_eq_some_iff_behind] at hdeclared
    exact ⟨_, capacity, lines, text, earlier, declared, own, hlink, htaken,
      ⟨hdeclared, hspells⟩, rfl⟩
  · intro h
    obtain ⟨_, capacity, lines, text, _, _, _, hlink, _⟩ := h
    exact ⟨capacity, lines, text, hlink⟩

/-- The operands of a program mean what the entries of its declarations say. -/
theorem Declares.exists_entries (h : program.Declares declarations) :
    ∃ made, Entry.extend? [] declarations = some made ∧
      ∀ token, program.values token = Entry.denote made token := by
  obtain ⟨capacity, lines, text, earlier, declared, own, hlink, hearlier, hsection, rfl⟩ := h
  obtain ⟨earlier', entries, htaken, hentries, hholds⟩ :=
    (Layout.holds_empty capacity).attempt lines
  obtain rfl : earlier = earlier' := Declaration.spells_unique hearlier htaken
  obtain ⟨declared', own', made, hdeclared, hspells, hmade, hvalues⟩ :=
    exists_entries_of_link hholds hlink
  -- The text has one data section only, so the lines and what they spell are those given.
  have hbehind := hsection.behind
  rw [← declarations?_eq_some_iff, declarations?_eq_some_iff_behind.mpr hbehind] at hdeclared
  obtain rfl := Option.some.inj hdeclared
  obtain rfl : own = own' := Declaration.spells_unique hsection.spells hspells
  exact ⟨made, (Entry.extend?_append hentries own).trans hmade, hvalues⟩

/-- A name that is declared first as a block stands for its values. -/
theorem Declares.values_block (h : program.Declares declarations)
    (hsymbol : Operand.ofToken name = .symbol name)
    (hfirst : declarations.find? (·.name = name) = some (.block name values)) :
    program.values name = .ok values := by
  obtain ⟨made, hmade, hvalues⟩ := h.exists_entries
  obtain ⟨_, entry, _, hentry, hnamed⟩ := Entry.exists_named?_of_find? hmade rfl hfirst
  obtain rfl := Option.some.inj hentry
  rw [hvalues, Entry.denote, hsymbol]
  simp only [hnamed]
  rfl

/-- A name that is declared first as the length of a block stands for the number of its values, when
the block is what the other name is declared as first. -/
theorem Declares.values_lengthOf (h : program.Declares declarations)
    (hsymbol : Operand.ofToken name = .symbol name)
    (hfirst : declarations.find? (·.name = name) = some (.lengthOf name target))
    (htarget : declarations.find? (·.name = target) = some (.block target values)) :
    program.values name = .ok [Int32.ofNat values.length] := by
  obtain ⟨made, hmade, hvalues⟩ := h.exists_entries
  obtain ⟨before, entry, ⟨later, hbefore⟩, hentry, hnamed⟩ :=
    Entry.exists_named?_of_find? hmade rfl hfirst
  obtain ⟨_, block, _, hblock, hnamedBlock⟩ := Entry.exists_named?_of_find? hmade rfl htarget
  obtain rfl := Option.some.inj hblock
  -- What is measured is the first entry of the name, which is still the first among all.
  obtain ⟨measured, hmeasured, rfl⟩ := Option.map_eq_some_iff.mp hentry
  have hsame := Entry.named?_append_of_eq_some hmeasured later
  rw [hbefore, hnamedBlock] at hsame
  obtain rfl := Option.some.inj hsame
  rw [hvalues, Entry.denote, hsymbol]
  simp only [hnamed]
  rfl

end ChannelAsm.Program
