import ChannelAsm.Proofs.Image.Contents

/-!
# Room for declarations

How many cells declarations take is known before the first is placed. By `Layout.Holds.chain_of_le`
declarations whose targets are declared before them all succeed in a memory with so many cells, and
by `Layout.Holds.break_of_lt` in any smaller one the first fails at which the cells run out.
Memories that hold the same entries differ only in the zeros behind them: `Layout.Holds.get?_eq`.
-/

namespace ChannelAsm

namespace Declaration

/-- The number of cells that a declaration takes. There is a terminator behind the values of a
block, and a free cell in front of a length. -/
def cells : Declaration → Nat
  | block _ values => values.length + 1
  | lengthOf .. => 2

/-- The number of cells that declarations take in all, which is the sum of what each takes. -/
def need : List Declaration → Nat
  | [] => 0
  | declaration :: rest => declaration.cells + need rest

/-- Every length is that of a name which is declared before it. -/
def Resolved (declarations : List Declaration) : Prop :=
  ∀ before name target after, declarations = before ++ .lengthOf name target :: after →
    target ∈ before.map Declaration.name

variable {declaration : Declaration} {declarations : List Declaration} {entry : Entry}
  {entries final : List Entry}

/-- The cells of a row of declarations are those of the first and those of the rest. -/
theorem need_cons (declaration : Declaration) (rest : List Declaration) :
    need (declaration :: rest) = declaration.cells + need rest :=
  rfl

/-- An entry takes as many cells as the declaration that makes it. -/
theorem length_image_of_measured? (h : declaration.measured? entries = some entry) :
    entry.image.length = declaration.cells := by
  cases declaration with
  | block name values =>
      obtain rfl := Option.some.inj h
      simp [Entry.image, cells]
  | lengthOf name target =>
      obtain ⟨measured, _, rfl⟩ := Option.map_eq_some_iff.mp h
      rfl

/-- Entries take as many cells as those before them and the declarations that make the others. -/
theorem length_images_extend? (h : Entry.extend? entries declarations = some final) :
    (Entry.images final).length = (Entry.images entries).length + need declarations := by
  induction declarations generalizing entries with
  | nil =>
      obtain rfl := Option.some.inj h
      rfl
  | cons declaration rest ih =>
      obtain ⟨entry, hentry, hrest⟩ := Option.bind_eq_some_iff.mp h
      rw [ih hrest, need_cons, Entry.images_append, List.length_append, Entry.images_cons,
        List.length_append, length_image_of_measured? hentry, Nat.add_assoc]
      rfl

/-- Declarations make entries behind others when every target is declared by then. -/
theorem exists_extend?
    (h : ∀ before name target after, declarations = before ++ .lengthOf name target :: after →
      target ∈ entries.map Entry.name ++ before.map Declaration.name) :
    ∃ final, Entry.extend? entries declarations = some final := by
  induction declarations generalizing entries with
  | nil => exact ⟨entries, rfl⟩
  | cons declaration rest ih =>
      have hentry : ∃ entry, declaration.measured? entries = some entry := by
        cases declaration with
        | block name values => exact ⟨.block name values, rfl⟩
        | lengthOf name target =>
            have htarget := h [] name target rest rfl
            rw [List.map_nil, List.append_nil] at htarget
            obtain ⟨measured, hmeasured⟩ := Entry.exists_named? htarget
            exact ⟨_, Option.map_eq_some_iff.mpr ⟨measured, hmeasured, rfl⟩⟩
      obtain ⟨entry, hentry⟩ := hentry
      -- What the first declaration declares goes over to the entries.
      obtain ⟨final, hfinal⟩ := @ih (entries ++ [entry]) (by
        intro before name target after hsplit
        have htarget := h (declaration :: before) name target after (by rw [hsplit]; rfl)
        simpa [name_of_measured? hentry] using htarget)
      exact ⟨final, Option.bind_eq_some_iff.mpr ⟨entry, hentry, hfinal⟩⟩

/-- Declarations make entries on their own when every target is declared before its length. -/
theorem Resolved.exists_extend? (h : Resolved declarations) :
    ∃ made, Entry.extend? [] declarations = some made :=
  Declaration.exists_extend? h

end Declaration

namespace Layout

variable {layout left right : Layout} {declaration : Declaration} {declarations : List Declaration}
  {entry : Entry} {entries made : List Entry} {lines : List Line} {capacity small large : Nat}

/-- A declaration that would make an entry is refused when there is no room for its cells. What it
tells is where these would have ended. -/
theorem Holds.accept_of_lt (h : layout.Holds capacity entries)
    (hentry : declaration.measured? entries = some entry)
    (hfull : capacity < layout.cursor + declaration.cells) :
    ∃ cells address, layout.accept declaration = .error (.outOfMemory cells address capacity) ∧
      address + cells = layout.cursor + declaration.cells := by
  have hcapacity := h.capacity_eq
  cases declaration with
  | block name values =>
      have hfull : layout.memory.capacity < layout.cursor + (values.length + 1) := hcapacity ▸ hfull
      refine ⟨values.length + 1, layout.cursor, ?_, rfl⟩
      rw [accept, Memory.check_of_lt hfull, hcapacity]
      rfl
  | lengthOf name target =>
      obtain ⟨measured, hmeasured, rfl⟩ := Option.map_eq_some_iff.mp hentry
      have hfull : layout.memory.capacity < layout.cursor + 1 + 1 := hcapacity ▸ hfull
      refine ⟨1, layout.cursor + 1, ?_, rfl⟩
      rcases h.get?_symbols target with ⟨_, hnamed⟩ | ⟨_, _, _, _, _, hget⟩
      · rw [hnamed] at hmeasured
        cases hmeasured
      · rw [accept, hget]
        dsimp only
        rw [Memory.check_of_lt hfull, hcapacity]
        rfl

/-- A line that spells a declaration succeeds when there is room for its cells. -/
theorem Holds.addLine_of_le (h : layout.Holds capacity entries) {line : Line}
    (hspells : Declaration.Spells line.words declaration)
    (hentry : declaration.measured? entries = some entry)
    (hroom : layout.cursor + declaration.cells ≤ capacity) :
    layout.addLine line = .reporting (layout.extend entry)
        #[.symbolDeclared (entry.symbolAt layout.cursor)] ∧
      (layout.extend entry).Holds capacity (entries ++ [entry]) ∧
      (layout.extend entry).cursor = layout.cursor + declaration.cells := by
  have himage := Declaration.length_image_of_measured? hentry
  rw [← himage] at hroom ⊢
  refine ⟨addLine_of_ok ?_, h.extend hroom, rfl⟩
  rw [Declaration.ofWords_of_spells hspells]
  exact h.accept_eq_ok_iff.mpr ⟨hentry, hroom⟩

/-- Lines succeed when there is room for all that they declare. -/
theorem Holds.chain_of_le (h : layout.Holds capacity entries)
    (hspells : List.Forall₂ (fun line declaration => Declaration.Spells line.words declaration)
      lines declarations)
    (hmade : Entry.extend? entries declarations = some made)
    (hroom : layout.cursor + Declaration.need declarations ≤ capacity) :
    ∃ reports final,
      Outcome.Chain (fun line layout => addLine layout line) lines layout reports final ∧
        final.Holds capacity made := by
  induction hspells generalizing layout entries with
  | nil =>
      obtain rfl := Option.some.inj hmade
      exact ⟨#[], layout, .nil layout, h⟩
  | @cons line declaration lines declarations hline _ ih =>
      obtain ⟨entry, hentry, hrest⟩ := Option.bind_eq_some_iff.mp hmade
      rw [Declaration.need_cons] at hroom
      obtain ⟨hadded, hnext, hcursor⟩ := h.addLine_of_le hline hentry (by omega)
      obtain ⟨reports, final, hchain, hfinal⟩ := ih hnext hrest (by omega)
      exact ⟨_, final, .cons hadded hchain, hfinal⟩

/-- Lines break where the room ends: the cells of the lines before fit, those of the line that is
refused do not. -/
theorem Holds.break_of_lt (h : layout.Holds capacity entries)
    (hspells : List.Forall₂ (fun line declaration => Declaration.Spells line.words declaration)
      lines declarations)
    (hmade : Entry.extend? entries declarations = some made)
    (hfull : capacity < layout.cursor + Declaration.need declarations) :
    ∃ index line reports left cells address,
      Outcome.Break (fun line layout => addLine layout line) lines layout index line reports left
        (.outOfMemory cells address capacity) ∧
      layout.cursor + Declaration.need (declarations.take index) ≤ capacity ∧
      capacity < layout.cursor + Declaration.need (declarations.take (index + 1)) ∧
      address + cells = layout.cursor + Declaration.need (declarations.take (index + 1)) := by
  induction hspells generalizing layout entries with
  | nil =>
      have hcursor := h.cursor_le
      exact absurd hfull (Nat.not_lt.mpr hcursor)
  | @cons line declaration lines declarations hline _ ih =>
      obtain ⟨entry, hentry, hrest⟩ := Option.bind_eq_some_iff.mp hmade
      rw [Declaration.need_cons] at hfull
      rcases Nat.lt_or_ge capacity (layout.cursor + declaration.cells) with hlast | hroom
      · obtain ⟨cells, address, haccept, haddress⟩ := h.accept_of_lt hentry hlast
        have hfails : layout.addLine line = .fail layout (.outOfMemory cells address capacity) := by
          apply addLine_of_error
          rw [Declaration.ofWords_of_spells hline]
          exact haccept
        exact ⟨0, line, #[], layout, cells, address, .head hfails, h.cursor_le, hlast, haddress⟩
      · obtain ⟨hadded, hnext, hcursor⟩ := h.addLine_of_le hline hentry hroom
        obtain ⟨index, other, reports, left, cells, address, hbreak, hbefore, hlast, haddress⟩ :=
          ih hnext hrest (by omega)
        rw [hcursor] at hbefore hlast haddress
        refine ⟨index + 1, other, _, left, cells, address, hbreak.cons hadded, ?_, ?_, ?_⟩
        · rw [List.take_succ_cons, Declaration.need_cons]
          omega
        · rw [List.take_succ_cons, Declaration.need_cons]
          omega
        · rw [List.take_succ_cons, Declaration.need_cons]
          omega

/-- Memories that hold the same entries agree on the cells that both have. -/
theorem Holds.get?_eq (hleft : left.Holds small entries) (hright : right.Holds large entries)
    {address : Nat} (hsmall : address < small) (hlarge : address < large) :
    left.memory.get? address = right.memory.get? address := by
  rcases Nat.lt_or_ge address (Entry.images entries).length with hin | hout
  · simp only [Memory.get?, ← Array.getElem?_toList, hleft.cells_eq, hright.cells_eq,
      List.getElem?_append_left hin]
  · rw [hleft.get?_of_le (hleft.cursor_eq ▸ hout) hsmall,
      hright.get?_of_le (hright.cursor_eq ▸ hout) hlarge]

/-- Layouts that hold the same entries have the same symbols. -/
theorem Holds.symbols_unique (hleft : left.Holds small entries)
    (hright : right.Holds large entries) : left.symbols = right.symbols := by
  have hlist := hleft.symbols_eq.trans hright.symbols_eq.symm
  exact congrArg SymbolTable.mk (Array.toList_inj.mp hlist)

end Layout

end ChannelAsm
