import ChannelAsm.Proofs.Image.Declaration
import ChannelAsm.Proofs.Image.Entry

/-!
# Placing declarations

A declaration is placed one cell at a time, and every cell could be refused. `accept` is the check
that comes before the first cell, and `extend` is the layout with an entry written at once. By
`place_of_ok` and `place_of_error` the check decides: behind it no cell is refused, and before it
nothing has changed. `addLine_of_ok` and `addLine_of_error` say the same of a line.
-/

namespace ChannelAsm.Layout

variable {layout : Layout} {declaration : Declaration} {entry : Entry} {fault : Fault}

/-- The layout with an entry at the cursor. -/
def extend (layout : Layout) (entry : Entry) : Layout where
  memory := ⟨Memory.put layout.memory.cells (layout.cursor + entry.gap) entry.written⟩
  symbols := layout.symbols.push (entry.symbolAt layout.cursor)
  cursor := layout.cursor + entry.image.length

/-- The entry that a declaration makes in a layout. A missing target is noticed before missing
room. -/
def accept (layout : Layout) : Declaration → Except Fault Entry
  | .block name values =>
      (layout.memory.check layout.cursor (values.length + 1)).map fun () => .block name values
  | .lengthOf name target =>
      match layout.symbols.get? target with
      | none => .error (.pointerNotFound target)
      | some measured =>
          (layout.memory.check (layout.cursor + 1) 1).map fun () => .length name measured.length

/-- A checked access succeeds within bounds only. -/
theorem check_map_eq_ok_iff {α : Type} {memory : Memory} {address count : Nat}
    {value result : α} :
    (memory.check address count).map (fun () => value) = .ok result ↔
      address + count ≤ memory.capacity ∧ value = result := by
  rw [map_eq_ok_iff, ← Memory.check_eq_ok_iff]
  exact ⟨fun ⟨⟨⟩, hcheck, hvalue⟩ => ⟨hcheck, hvalue⟩, fun ⟨hcheck, hvalue⟩ => ⟨(), hcheck, hvalue⟩⟩

/-- Reserving cells that are within bounds changes nothing. -/
theorem reserve_of_ok {address count : Nat} (h : layout.memory.check address count = .ok ()) :
    layout.reserve address count = .done layout := by
  rw [reserve, h]
  rfl

/-- Reserving cells that are out of bounds fails and changes nothing. -/
theorem reserve_of_error {address count : Nat}
    (h : layout.memory.check address count = .error fault) :
    layout.reserve address count = .fail layout fault := by
  rw [reserve, h]
  rfl

/-- Writing a cell within bounds succeeds. -/
theorem writeAt_of_lt {address : Nat} {value : Int32} (h : address < layout.memory.capacity) :
    layout.writeAt address value =
      .done ⟨⟨layout.memory.cells.setIfInBounds address value⟩, layout.symbols, address + 1⟩ := by
  have hstore : layout.memory.store address [value] =
      .ok ⟨layout.memory.cells.setIfInBounds address value⟩ :=
    Memory.store_of_le h
  rw [writeAt, Memory.write, hstore]
  rfl

/-- Writing cells one by one, all within bounds, succeeds and is writing them at once. -/
theorem writeAll_of_le {values : List Int32}
    (h : layout.cursor + values.length ≤ layout.memory.capacity) :
    layout.writeAll values =
      .done ⟨⟨Memory.put layout.memory.cells layout.cursor values⟩, layout.symbols,
        layout.cursor + values.length⟩ := by
  -- Every cell that is written moves the cursor, so the bound goes over to the cells that are left.
  induction values generalizing layout with
  | nil => rfl
  | cons value values ih =>
      rw [List.length_cons] at h
      have hfirst : layout.cursor < layout.memory.capacity := by omega
      have hrest := @ih ⟨⟨layout.memory.cells.setIfInBounds layout.cursor value⟩, layout.symbols,
        layout.cursor + 1⟩ (by
          show layout.cursor + 1 + values.length ≤ (Array.setIfInBounds _ _ _).size
          rw [Array.size_setIfInBounds]
          show layout.cursor + 1 + values.length ≤ layout.memory.capacity
          omega)
      rw [writeAll, Outcome.sequence_cons, writeAt_of_lt hfirst, Outcome.done_andThen]
      rw [writeAll] at hrest
      rw [hrest, List.length_cons, Nat.add_comm values.length, ← Nat.add_assoc]
      rfl

/-- Once the check has passed no cell is refused: the whole entry is written. -/
theorem place_of_ok (h : layout.accept declaration = .ok entry) :
    layout.place declaration =
      .reporting (layout.extend entry) #[.symbolDeclared (entry.symbolAt layout.cursor)] := by
  cases declaration with
  | block name values =>
      obtain ⟨⟨⟩, hcheck, rfl⟩ := map_eq_ok_iff.mp h
      have hroom : layout.cursor + (values ++ [terminator]).length ≤ layout.memory.capacity := by
        simpa using Memory.check_eq_ok_iff.mp hcheck
      rw [place, placeBlock, reserve_of_ok hcheck, Outcome.done_andThen, writeAll_of_le hroom,
        Outcome.done_andThen]
      rfl
  | lengthOf name target =>
      rw [accept] at h
      rw [place, placeLength]
      cases htarget : layout.symbols.get? target with
      | none =>
          rw [htarget] at h
          cases h
      | some measured =>
          rw [htarget] at h
          obtain ⟨⟨⟩, hcheck, rfl⟩ := map_eq_ok_iff.mp h
          have hroom : layout.cursor + 1 < layout.memory.capacity :=
            Memory.check_eq_ok_iff.mp hcheck
          dsimp only
          rw [reserve_of_ok hcheck, Outcome.done_andThen, writeAt_of_lt hroom,
            Outcome.done_andThen]
          rfl

/-- When the check fails nothing has been written. -/
theorem place_of_error (h : layout.accept declaration = .error fault) :
    layout.place declaration = .fail layout fault := by
  cases declaration with
  | block name values =>
      have hcheck := map_eq_error_iff.mp h
      rw [place, placeBlock, reserve_of_error hcheck]
      rfl
  | lengthOf name target =>
      rw [accept] at h
      rw [place, placeLength]
      cases htarget : layout.symbols.get? target with
      | none =>
          rw [htarget] at h
          cases h
          rfl
      | some measured =>
          rw [htarget] at h
          have hcheck := map_eq_error_iff.mp h
          dsimp only
          rw [reserve_of_error hcheck]
          rfl

/-- A line that makes an entry is carried out completely. -/
theorem addLine_of_ok {line : Line}
    (h : Declaration.ofWords line.words >>= layout.accept = .ok entry) :
    layout.addLine line =
      .reporting (layout.extend entry) #[.symbolDeclared (entry.symbolAt layout.cursor)] := by
  obtain ⟨declaration, hwords, hentry⟩ := bind_eq_ok_iff.mp h
  rw [addLine, hwords]
  exact place_of_ok hentry

/-- A line that makes no entry changes nothing and is not recorded. -/
theorem addLine_of_error {line : Line}
    (h : Declaration.ofWords line.words >>= layout.accept = .error fault) :
    layout.addLine line = .fail layout fault := by
  unfold addLine
  rcases bind_eq_error_iff.mp h with hwords | ⟨declaration, hwords, hentry⟩
  · rw [hwords]
  · rw [hwords]
    exact place_of_error hentry

end ChannelAsm.Layout
