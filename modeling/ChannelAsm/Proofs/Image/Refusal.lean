import ChannelAsm.Proofs.Image.Placement

/-!
# Which lines are refused

`Layout.Admits` lists the lines that can be declared in a layout, and `Layout.Refuses` the others,
each with the first reason why: the form of the line, then its target, then the room for its cells.
`addLine_verdict` says that a line succeeds exactly when it is admitted, fails exactly with the
reason for which it is refused, and then leaves the layout as it was.
-/

namespace ChannelAsm.Layout

/-- `layout.Admits words` says that a line with these words can be declared: it lists literals and
there is room for them and a terminator, or it measures a declared name and there is room for a
free cell and the length. -/
inductive Admits (layout : Layout) : List String → Prop where
  | block {name : String} {arguments : List String} :
      (∀ word ∈ arguments, IsLiteral word) →
      layout.cursor + arguments.length + 1 ≤ layout.memory.capacity →
      Admits layout (name :: "db" :: arguments)
  | lengthOf {name target : String} {rest : List String} :
      (∃ symbol ∈ layout.symbols.toList, symbol.name = target) →
      layout.cursor + 2 ≤ layout.memory.capacity →
      Admits layout (name :: "equ" :: "$" :: "-" :: target :: rest)

/-- `layout.Refuses words fault` says that a line with these words cannot be declared, and which
reason comes first. -/
inductive Refuses (layout : Layout) : List String → Fault → Prop where
  | malformed {words : List String} {fault : Fault} :
      Declaration.Malformed words fault → Refuses layout words fault
  | blockRoom {name : String} {arguments : List String} :
      (∀ word ∈ arguments, IsLiteral word) →
      layout.memory.capacity < layout.cursor + arguments.length + 1 →
      Refuses layout (name :: "db" :: arguments)
        (.outOfMemory (arguments.length + 1) layout.cursor layout.memory.capacity)
  | target {name target : String} {rest : List String} :
      (∀ symbol ∈ layout.symbols.toList, symbol.name ≠ target) →
      Refuses layout (name :: "equ" :: "$" :: "-" :: target :: rest) (.pointerNotFound target)
  | lengthRoom {name target : String} {rest : List String} :
      (∃ symbol ∈ layout.symbols.toList, symbol.name = target) →
      layout.memory.capacity < layout.cursor + 2 →
      Refuses layout (name :: "equ" :: "$" :: "-" :: target :: rest)
        (.outOfMemory 1 (layout.cursor + 1) layout.memory.capacity)

variable {layout : Layout} {words : List String}

/-- Words that are all literals have values. -/
theorem exists_values {arguments : List String} (h : ∀ word ∈ arguments, IsLiteral word) :
    ∃ values, List.Forall₂ (fun word value => literalValue word = .ok value) arguments values := by
  induction arguments with
  | nil => exact ⟨[], .nil⟩
  | cons word rest ih =>
      obtain ⟨value, hvalue⟩ := h word List.mem_cons_self
      obtain ⟨values, hvalues⟩ := ih fun other hother => h other (List.mem_cons_of_mem _ hother)
      exact ⟨value :: values, .cons hvalue hvalues⟩

/-- Words that have values are all literals. -/
theorem isLiteral_of_values {arguments : List String} {values : List Int32}
    (h : List.Forall₂ (fun word value => literalValue word = .ok value) arguments values) :
    ∀ word ∈ arguments, IsLiteral word := by
  induction h with
  | nil => simp
  | cons hvalue _ ih =>
      intro word hword
      rcases List.mem_cons.mp hword with rfl | hword
      · exact ⟨_, hvalue⟩
      · exact ih word hword

/-- A name is missing exactly when no symbol has it. -/
theorem get?_eq_none_iff {target : String} :
    layout.symbols.get? target = none ↔
      ∀ symbol ∈ layout.symbols.toList, symbol.name ≠ target := by
  simp [SymbolTable.get?_eq_find?]

/-- A name that some symbol has is found. -/
theorem exists_get?_eq_some {target : String}
    (h : ∃ symbol ∈ layout.symbols.toList, symbol.name = target) :
    ∃ measured, layout.symbols.get? target = some measured := by
  obtain ⟨symbol, hsymbol, hname⟩ := h
  refine Option.ne_none_iff_exists'.mp fun hnone => ?_
  exact get?_eq_none_iff.mp hnone symbol hsymbol hname

/-- Every line is admitted or refused for some reason. -/
theorem admits_or_refuses (layout : Layout) (words : List String) :
    layout.Admits words ∨ ∃ fault, layout.Refuses words fault := by
  rcases Declaration.ofWords_cases words with ⟨declaration, hspells, _⟩ | ⟨fault, hbad, _⟩
  · cases hspells with
    | @block name arguments values hvalues =>
        have hliterals := isLiteral_of_values hvalues
        rcases Nat.lt_or_ge layout.memory.capacity (layout.cursor + arguments.length + 1) with
          hfull | hroom
        · exact .inr ⟨_, .blockRoom hliterals hfull⟩
        · exact .inl (.block hliterals hroom)
    | lengthOf name target rest =>
        by_cases hdeclared : ∃ symbol ∈ layout.symbols.toList, symbol.name = target
        · rcases Nat.lt_or_ge layout.memory.capacity (layout.cursor + 2) with hfull | hroom
          · exact .inr ⟨_, .lengthRoom hdeclared hfull⟩
          · exact .inl (.lengthOf hdeclared hroom)
        · exact .inr ⟨_, .target fun symbol hsymbol hname => hdeclared ⟨symbol, hsymbol, hname⟩⟩
  · exact .inr ⟨fault, .malformed hbad⟩

/-- A line that is admitted makes an entry. -/
theorem Admits.accept (h : layout.Admits words) :
    ∃ entry, Declaration.ofWords words >>= layout.accept = .ok entry := by
  cases h with
  | @block name arguments hliterals hroom =>
      obtain ⟨values, hvalues⟩ := exists_values hliterals
      rw [hvalues.length_eq, Nat.add_assoc] at hroom
      refine ⟨.block name values, ?_⟩
      rw [Declaration.ofWords_of_spells (.block hvalues)]
      exact check_map_eq_ok_iff.mpr ⟨hroom, rfl⟩
  | @lengthOf name target rest hdeclared hroom =>
      obtain ⟨measured, htarget⟩ := exists_get?_eq_some hdeclared
      refine ⟨.length name measured.length, ?_⟩
      show Layout.accept layout (.lengthOf name target) = _
      rw [Layout.accept, htarget]
      exact check_map_eq_ok_iff.mpr ⟨hroom, rfl⟩

/-- A line that is refused makes no entry, for that reason. -/
theorem Refuses.accept {fault : Fault} (h : layout.Refuses words fault) :
    Declaration.ofWords words >>= layout.accept = .error fault := by
  cases h with
  | malformed h =>
      rw [Declaration.ofWords_of_malformed h]
      rfl
  | @blockRoom name arguments hliterals hfull =>
      obtain ⟨values, hvalues⟩ := exists_values hliterals
      rw [hvalues.length_eq] at hfull ⊢
      rw [Declaration.ofWords_of_spells (.block hvalues)]
      exact map_eq_error_iff.mpr (Memory.check_of_lt hfull)
  | @target name target rest hmissing =>
      show Layout.accept layout (.lengthOf name target) = _
      rw [Layout.accept, get?_eq_none_iff.mpr hmissing]
  | @lengthRoom name target rest hdeclared hfull =>
      obtain ⟨measured, htarget⟩ := exists_get?_eq_some hdeclared
      show Layout.accept layout (.lengthOf name target) = _
      rw [Layout.accept, htarget]
      exact map_eq_error_iff.mpr (Memory.check_of_lt hfull)

/-- A line that can be declared succeeds; any other fails with the first reason why it cannot, and
leaves memory, symbols and cursor as they were, with nothing recorded. -/
theorem addLine_verdict (layout : Layout) (line : Line) :
    ((layout.addLine line).result = .ok () ↔ layout.Admits line.words) ∧
      (∀ fault, (layout.addLine line).result = .error fault ↔ layout.Refuses line.words fault) ∧
      (¬ layout.Admits line.words →
        (layout.addLine line).state = layout ∧ (layout.addLine line).reports = #[]) := by
  rcases layout.admits_or_refuses line.words with hadmits | ⟨fault, hrefuses⟩
  · obtain ⟨entry, hentry⟩ := hadmits.accept
    rw [addLine_of_ok hentry]
    refine ⟨iff_of_true rfl hadmits, fun other => ?_, fun hnot => absurd hadmits hnot⟩
    refine iff_of_false (by simp [Outcome.reporting]) fun hother => ?_
    rw [hother.accept] at hentry
    cases hentry
  · have hfault := hrefuses.accept
    rw [addLine_of_error hfault]
    refine ⟨iff_of_false (by simp [Outcome.fail]) fun hadmits => ?_, fun other => ?_,
      fun _ => ⟨rfl, rfl⟩⟩
    · obtain ⟨entry, hentry⟩ := hadmits.accept
      rw [hfault] at hentry
      cases hentry
    · constructor
      · intro h
        exact Except.error.inj h ▸ hrefuses
      · intro hother
        rw [hother.accept] at hfault
        exact congrArg Except.error (Except.error.inj hfault).symm

end ChannelAsm.Layout
