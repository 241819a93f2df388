import ChannelAsm.Proofs.Image.Placement
import ChannelAsm.Proofs.Outcome

/-!
# The contents of a layout

`Holds` says which entries a memory holds, cell by cell. It holds of a fresh layout, and by
`Holds.extend` placing what one more declaration makes extends it. `Holds.attempt` carries it
through every row of lines, the failing ones among them included, and `contents_of_attempt` spells
out what it says of the layout that they leave.
-/

namespace ChannelAsm.Layout

variable {layout : Layout} {declaration : Declaration} {entry : Entry} {entries : List Entry}
  {capacity : Nat}

/-- `layout.Holds capacity entries` says that the memory has this capacity and that the entries lie
in it one behind the other, with zeros up to the end and a symbol for each. -/
structure Holds (layout : Layout) (capacity : Nat) (entries : List Entry) : Prop where
  cells_eq : layout.memory.cells.toList = Entry.images entries ++
    List.replicate (capacity - (Entry.images entries).length) 0
  cursor_eq : layout.cursor = (Entry.images entries).length
  cursor_le : layout.cursor ≤ capacity
  symbols_eq : layout.symbols.toList = Entry.symbols 0 entries

/-- A fresh layout holds no entry. -/
theorem holds_empty (capacity : Nat) : (empty capacity).Holds capacity [] where
  cells_eq := by simp [empty, Memory.zeroed, Entry.images]
  cursor_eq := rfl
  cursor_le := Nat.zero_le capacity
  symbols_eq := rfl

/-- The memory of a layout has the capacity that its entries share. -/
theorem Holds.capacity_eq (h : layout.Holds capacity entries) :
    layout.memory.capacity = capacity := by
  have hcursor := h.cursor_eq
  have hfits := h.cursor_le
  rw [Memory.capacity, ← Array.length_toList, h.cells_eq, List.length_append,
    List.length_replicate]
  omega

/-- A name is found exactly when an entry has it, and then as the symbol of the first such entry,
behind the cells of those before it. -/
theorem Holds.get?_symbols (h : layout.Holds capacity entries) (name : String) :
    layout.symbols.get? name = none ∧ Entry.named? entries name = none ∨
      ∃ before entry after, entries = before ++ entry :: after ∧
        Entry.named? entries name = some entry ∧
        layout.symbols.get? name = some (entry.symbolAt (Entry.images before).length) := by
  rw [SymbolTable.get?_eq_find?, h.symbols_eq]
  simpa using Entry.find?_symbols 0 entries name

/-- A declaration makes an entry exactly when its target is among the entries and there is room
for its cells. -/
theorem Holds.accept_eq_ok_iff (h : layout.Holds capacity entries) :
    layout.accept declaration = .ok entry ↔
      declaration.measured? entries = some entry ∧
        layout.cursor + entry.image.length ≤ capacity := by
  cases declaration with
  | block name values =>
      have hlength : (Entry.block name values).image.length = values.length + 1 := by
        simp [Entry.image]
      rw [accept, check_map_eq_ok_iff, h.capacity_eq, Declaration.measured?, Option.some_inj]
      constructor
      · intro h
        obtain ⟨hroom, rfl⟩ := h
        exact ⟨rfl, hlength ▸ hroom⟩
      · intro h
        obtain ⟨rfl, hroom⟩ := h
        exact ⟨hlength ▸ hroom, rfl⟩
  | lengthOf name target =>
      rw [accept, Declaration.measured?]
      rcases h.get?_symbols target with ⟨hget, hnamed⟩ | ⟨before, measured, after, _, hnamed, hget⟩
      · simp [hget, hnamed]
      · rw [hget, hnamed, Option.map_some, Option.some_inj]
        dsimp only
        rw [check_map_eq_ok_iff, h.capacity_eq, Entry.length_symbolAt]
        constructor
        · intro h
          obtain ⟨hroom, rfl⟩ := h
          exact ⟨rfl, hroom⟩
        · intro h
          obtain ⟨rfl, hroom⟩ := h
          exact ⟨hroom, rfl⟩

/-- Writing an entry for which there is room puts its cells behind those of the others. -/
theorem Holds.extend (h : layout.Holds capacity entries)
    (hroom : layout.cursor + entry.image.length ≤ capacity) :
    (layout.extend entry).Holds capacity (entries ++ [entry]) := by
  have himage := entry.length_image
  have hcursor := h.cursor_eq
  have himages : Entry.images (entries ++ [entry]) = Entry.images entries ++ entry.image := by
    rw [Entry.images_append, Entry.images_cons]
    exact congrArg _ (List.append_nil _)
  have hbound : layout.cursor + entry.gap + entry.written.length ≤ layout.memory.cells.size := by
    have hcapacity : layout.memory.cells.size = capacity := h.capacity_eq
    omega
  refine ⟨?_, ?_, hroom, ?_⟩
  · show (Memory.put _ _ _).toList = _
    have hgap : min entry.gap (capacity - (Entry.images entries).length) = entry.gap := by omega
    have hrest : capacity - (Entry.images (entries ++ [entry])).length =
        capacity - (Entry.images entries).length - (entry.gap + entry.written.length) := by
      rw [himages, List.length_append]
      omega
    rw [Memory.toList_put _ _ _ hbound, h.cells_eq, hcursor, List.take_length_add_append,
      Nat.add_assoc, List.drop_length_add_append, List.take_replicate, List.drop_replicate, hgap,
      hrest, himages, entry.image_eq]
    simp only [List.append_assoc]
  · show layout.cursor + entry.image.length = _
    rw [himages, List.length_append, hcursor]
  · show (layout.symbols.push _).toList = _
    rw [SymbolTable.toList_push, h.symbols_eq, Entry.symbols_append, Nat.zero_add, hcursor]
    rfl

/-- Every cell from the cursor on is zero. -/
theorem Holds.get?_of_le (h : layout.Holds capacity entries) {address : Nat}
    (hfree : layout.cursor ≤ address) (hbound : address < capacity) :
    layout.memory.get? address = some 0 := by
  have hcursor := h.cursor_eq
  rw [Memory.get?, ← Array.getElem?_toList, h.cells_eq, List.getElem?_append_right (by omega),
    List.getElem?_replicate, if_pos (by omega)]

/-- The cells of a symbol are the values of its entry. -/
theorem Holds.read_symbol {before after : List Entry}
    (h : layout.Holds capacity (before ++ entry :: after)) :
    let symbol := entry.symbolAt (Entry.images before).length
    layout.memory.read symbol.offset symbol.length = .ok entry.values := by
  dsimp only
  rw [Entry.offset_symbolAt, Entry.length_symbolAt]
  have hvalues := entry.length_values_le
  have himage := entry.length_image
  have hcells := h.cells_eq
  have hfits := h.cursor_eq ▸ h.cursor_le
  rw [Entry.images_append, Entry.images_cons, entry.image_eq] at hcells
  rw [Entry.images_append, Entry.images_cons, List.length_append, List.length_append] at hfits
  have hbound : (Entry.images before).length + entry.gap + entry.values.length ≤
      layout.memory.capacity := by
    rw [h.capacity_eq]
    omega
  rw [Memory.read, Memory.check_of_le hbound]
  show Except.ok _ = Except.ok _
  rw [Array.toList_extract, List.extract_eq_take_drop, hcells, Nat.add_sub_cancel_left]
  simp only [List.append_assoc]
  rw [← List.append_assoc, List.drop_left' (by simp),
    List.take_append_of_le_length hvalues, entry.take_written]

/-! ## Rows of lines -/

/-- The layout after lines have been tried one after the other, each from the layout that the one
before it has left, whether that one failed or not. -/
def attempt (layout : Layout) : List Line → Layout
  | [] => layout
  | line :: rest => (layout.addLine line).state.attempt rest

/-- The lines that succeed when lines are tried one after the other. -/
def taken (layout : Layout) : List Line → List Line
  | [] => []
  | line :: rest =>
      let outcome := layout.addLine line
      match outcome.result with
      | .ok () => line :: outcome.state.taken rest
      | .error _ => outcome.state.taken rest

/-- A line that succeeds makes an entry of its declaration; one that fails changes nothing. -/
theorem Holds.addLine_cases (h : layout.Holds capacity entries) (line : Line) :
    (∃ declaration entry, Declaration.Spells line.words declaration ∧
        declaration.measured? entries = some entry ∧
        layout.addLine line = .reporting (layout.extend entry)
          #[.symbolDeclared (entry.symbolAt layout.cursor)] ∧
        (layout.extend entry).Holds capacity (entries ++ [entry])) ∨
      ∃ fault, layout.addLine line = .fail layout fault := by
  cases hline : Declaration.ofWords line.words >>= layout.accept with
  | error fault => exact .inr ⟨fault, addLine_of_error hline⟩
  | ok entry =>
      obtain ⟨declaration, hwords, hentry⟩ := bind_eq_ok_iff.mp hline
      obtain ⟨hmade, hroom⟩ := h.accept_eq_ok_iff.mp hentry
      exact .inl ⟨declaration, entry, Declaration.ofWords_eq_ok_iff.mp hwords, hmade,
        addLine_of_ok hline, h.extend hroom⟩

/-- A line succeeds exactly when it spells a declaration that makes an entry behind those that the
layout holds and there is room for the cells of that entry. -/
theorem Holds.addLine_eq_ok_iff (h : layout.Holds capacity entries) (line : Line) :
    (layout.addLine line).result = .ok () ↔
      ∃ declaration entry, Declaration.Spells line.words declaration ∧
        declaration.measured? entries = some entry ∧
        layout.cursor + entry.image.length ≤ capacity := by
  cases hline : Declaration.ofWords line.words >>= layout.accept with
  | error fault =>
      rw [addLine_of_error hline]
      refine iff_of_false (by simp [Outcome.fail]) ?_
      rintro ⟨declaration, entry, hspells, hmade, hroom⟩
      rw [Declaration.ofWords_of_spells hspells] at hline
      cases (h.accept_eq_ok_iff.mpr ⟨hmade, hroom⟩).symm.trans hline
  | ok entry =>
      obtain ⟨declaration, hwords, hentry⟩ := bind_eq_ok_iff.mp hline
      rw [addLine_of_ok hline]
      exact iff_of_true rfl ⟨declaration, entry, Declaration.ofWords_eq_ok_iff.mp hwords,
        h.accept_eq_ok_iff.mp hentry⟩

/-- Trying lines adds the entries of what those spell that succeed. -/
theorem Holds.attempt (h : layout.Holds capacity entries) (lines : List Line) :
    ∃ declarations final,
      List.Forall₂ (fun line declaration => Declaration.Spells line.words declaration)
        (layout.taken lines) declarations ∧
      Entry.extend? entries declarations = some final ∧
      (layout.attempt lines).Holds capacity final := by
  induction lines generalizing layout entries with
  | nil => exact ⟨[], entries, .nil, rfl, h⟩
  | cons line rest ih =>
      rw [taken, Layout.attempt]
      rcases h.addLine_cases line with
        ⟨declaration, entry, hspells, hentry, hline, hnext⟩ | ⟨fault, hline⟩
      · obtain ⟨declarations, final, hdeclarations, hfinal, hholds⟩ := ih hnext
        rw [hline]
        refine ⟨declaration :: declarations, final, .cons hspells hdeclarations, ?_, hholds⟩
        rw [Entry.extend?, hentry]
        exact hfinal
      · -- The layout is the one before the line, which still holds the same entries.
        rw [hline]
        exact ih h

/-- Lines that all succeed make an entry each. -/
theorem Holds.chain (h : layout.Holds capacity entries) {lines : List Line}
    {reports : Array Record} {final : Layout}
    (hchain : Outcome.Chain (fun line layout => layout.addLine line) lines layout reports final) :
    ∃ declarations made,
      List.Forall₂ (fun line declaration => Declaration.Spells line.words declaration) lines
        declarations ∧
      Entry.extend? entries declarations = some made ∧ final.Holds capacity made := by
  induction hchain generalizing entries with
  | nil => exact ⟨[], entries, .nil, rfl, h⟩
  | @cons line rest layout reached final first more hstep _ ih =>
      rcases h.addLine_cases line with
        ⟨declaration, entry, hspells, hentry, hline, hnext⟩ | ⟨fault, hline⟩
      · rw [hline] at hstep
        cases hstep
        obtain ⟨declarations, made, hdeclared, hmade, hholds⟩ := ih hnext
        refine ⟨declaration :: declarations, made, .cons hspells hdeclared, ?_, hholds⟩
        rw [Entry.extend?, hentry]
        exact hmade
      · rw [hline] at hstep
        cases hstep

/-- What is in a layout that starts empty, after any lines have been tried: the cells of what those
lines declare that succeeded, in order, then zeros up to the capacity; the cursor at the end of
those cells; and for each of these declarations, in order, a symbol for its values. So symbols lie
before the cursor, one behind the other, and every cell from the cursor on is zero. The next line
succeeds exactly when it spells a declaration that makes an entry for which there is room. -/
theorem contents_of_attempt (capacity : Nat) (lines : List Line) :
    ∃ declarations entries,
      List.Forall₂ (fun line declaration => Declaration.Spells line.words declaration)
        ((empty capacity).taken lines) declarations ∧
      Entry.extend? [] declarations = some entries ∧
      entries.map Entry.name = declarations.map Declaration.name ∧
      let layout := (empty capacity).attempt lines
      layout.memory.capacity = capacity ∧
      layout.memory.cells.toList = Entry.images entries ++
        List.replicate (capacity - (Entry.images entries).length) 0 ∧
      layout.cursor = (Entry.images entries).length ∧ layout.cursor ≤ capacity ∧
      layout.symbols.toList = Entry.symbols 0 entries ∧
      (∀ symbol ∈ layout.symbols.toList, symbol.offset + symbol.length ≤ layout.cursor) ∧
      (layout.symbols.toList.Pairwise fun earlier later =>
        earlier.offset + earlier.length ≤ later.offset) ∧
      (∀ address, layout.cursor ≤ address → address < capacity →
        layout.memory.get? address = some 0) ∧
      ∀ line, (layout.addLine line).result = .ok () ↔
        ∃ declaration entry, Declaration.Spells line.words declaration ∧
          declaration.measured? entries = some entry ∧
          layout.cursor + entry.image.length ≤ capacity := by
  obtain ⟨declarations, entries, hspell, hentries, h⟩ := (holds_empty capacity).attempt lines
  refine ⟨declarations, entries, hspell, hentries, Entry.map_name_extend? hentries, h.capacity_eq,
    h.cells_eq, h.cursor_eq, h.cursor_le, h.symbols_eq, ?_, ?_, ?_, h.addLine_eq_ok_iff⟩
  · intro symbol hsymbol
    rw [h.symbols_eq] at hsymbol
    rw [h.cursor_eq]
    simpa using (Entry.bounds_of_mem_symbols hsymbol).2
  · rw [h.symbols_eq]
    exact Entry.pairwise_symbols 0 entries
  · intro address hfree hbound
    exact h.get?_of_le hfree hbound

end ChannelAsm.Layout
