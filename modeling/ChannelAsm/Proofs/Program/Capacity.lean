import ChannelAsm.Proofs.Image.Room
import ChannelAsm.Proofs.Machine.Equivalence
import ChannelAsm.Proofs.Program.Declared

/-!
# What the capacity decides

The capacity of the memory decides whether a program fits and nothing else. When every line of the
data section is well formed and every length has a target, `Program.link_capacity` says that linking
succeeds exactly in a memory with room for the cells that are declared, that the program it gives is
the same up to the zeros at the end, and which line runs out of memory otherwise.
-/

namespace ChannelAsm.Program

/-- The diagnostic of a line for whose cells there is no room. -/
def roomDiagnostic (line : Line) (cells address capacity : Nat) : Diagnostic where
  code := .outOfMemory
  line := some line.number
  statement := line.text
  message := (Fault.outOfMemory cells address capacity).message

variable {text : String} {declared : List Line} {declarations : List Declaration}
  {made : List Entry} {layout : Layout} {capacity : Nat}

/-- A text whose declarations all fit is linked. -/
theorem DataSection.link_of_le (h : DataSection text declared declarations)
    (hmade : Entry.extend? [] declarations = some made)
    (hroom : Declaration.need declarations ≤ capacity) :
    ∃ final : Layout, final.Holds capacity made ∧
      (link (.empty capacity) text).result =
        .ok ⟨Line.ofListing text, final.memory, final.symbols⟩ := by
  have hfresh := Layout.holds_empty capacity
  obtain ⟨reports, final, hchain, hfinal⟩ := hfresh.chain_of_le h.spells hmade
    ((Nat.zero_add _).trans_le hroom)
  refine ⟨final, hfinal, ?_⟩
  rw [link, declarations?_eq_some_iff_behind.mpr h.behind]
  dsimp only
  rw [Layout.addLines_of_chain hchain]

/-- A text whose declarations do not all fit is refused at the first that does not. -/
theorem DataSection.link_of_lt (h : DataSection text declared declarations)
    (hmade : Entry.extend? [] declarations = some made)
    (hfull : capacity < Declaration.need declarations) :
    ∃ index line cells address, declared[index]? = some line ∧
      Declaration.need (declarations.take index) ≤ capacity ∧
      capacity < Declaration.need (declarations.take (index + 1)) ∧
      address + cells = Declaration.need (declarations.take (index + 1)) ∧
      (link (.empty capacity) text).result =
        .error (roomDiagnostic line cells address capacity) := by
  have hfresh := Layout.holds_empty capacity
  obtain ⟨index, line, reports, left, cells, address, hbreak, hbefore, hlast, haddress⟩ :=
    hfresh.break_of_lt h.spells hmade (hfull.trans_eq (Nat.zero_add _).symm)
  have hline : declared[index]? = some line := by
    obtain ⟨_, _, _, _, hget, _⟩ := hbreak
    exact hget
  have hzero : (Layout.empty capacity).cursor = 0 := rfl
  rw [hzero, Nat.zero_add] at hbefore hlast haddress
  refine ⟨index, line, cells, address, hline, hbefore, hlast, haddress, ?_⟩
  rw [link, declarations?_eq_some_iff_behind.mpr h.behind]
  dsimp only
  rw [Layout.addLines_of_break hbreak]
  rfl

/-- A text whose declarations are well formed, with a target for every length, is linked exactly
when the memory has room for their cells. In any two memories that do, the programs have the same
lines, the same symbols, the same cells as far as both reach and zeros behind; so operands stand for
the same, and requests are answered alike and leave the same bank. In a memory that does not, the
first declaration is refused with which the cells exceed it. -/
theorem link_capacity (h : DataSection text declared declarations)
    (htargets : Declaration.Resolved declarations) :
    let need := Declaration.need declarations
    (∀ capacity, (∃ program, (link (.empty capacity) text).result = .ok program) ↔
      need ≤ capacity) ∧
    (∀ small large, need ≤ small → small ≤ large → ∃ left right,
      (link (.empty small) text).result = .ok left ∧
      (link (.empty large) text).result = .ok right ∧
      left.lines = right.lines ∧ left.symbols = right.symbols ∧
      left.memory.capacity = small ∧ right.memory.capacity = large ∧
      (∀ address, address < small → left.memory.get? address = right.memory.get? address) ∧
      (∀ address, small ≤ address → address < large → right.memory.get? address = some 0) ∧
      (∀ token, left.values token = right.values token) ∧
      ∀ requests bank, left.answers requests bank = right.answers requests bank ∧
        left.bankAfter requests bank = right.bankAfter requests bank) ∧
    ∀ capacity, capacity < need → ∃ index line cells address,
      declared[index]? = some line ∧
      Declaration.need (declarations.take index) ≤ capacity ∧
      capacity < Declaration.need (declarations.take (index + 1)) ∧
      address + cells = Declaration.need (declarations.take (index + 1)) ∧
      (link (.empty capacity) text).result =
        .error (roomDiagnostic line cells address capacity) := by
  obtain ⟨made, hmade⟩ := htargets.exists_extend?
  refine ⟨fun capacity => ⟨fun hlinks => ?_, fun hroom => ?_⟩, fun small large hsmall hlarge => ?_,
    fun capacity hfull => h.link_of_lt hmade hfull⟩
  · -- In a smaller memory linking would fail.
    obtain ⟨program, hprogram⟩ := hlinks
    refine Nat.le_of_not_lt fun hfull => ?_
    obtain ⟨_, _, _, _, _, _, _, _, herror⟩ := h.link_of_lt hmade hfull
    rw [hprogram] at herror
    cases herror
  · obtain ⟨final, _, hlink⟩ := h.link_of_le hmade hroom
    exact ⟨_, hlink⟩
  · obtain ⟨left, hleft, hleftLink⟩ := h.link_of_le hmade hsmall
    obtain ⟨right, hright, hrightLink⟩ := h.link_of_le hmade (hsmall.trans hlarge)
    have hneed : left.cursor = Declaration.need declarations := by
      rw [hleft.cursor_eq, Declaration.length_images_extend? hmade]
      exact Nat.zero_add _
    have hvalues (token : String) :
        (Program.mk (Line.ofListing text) left.memory left.symbols).values token =
          (Program.mk (Line.ofListing text) right.memory right.symbols).values token :=
      (values_eq_denote hleft rfl rfl token).trans (values_eq_denote hright rfl rfl token).symm
    refine ⟨_, _, hleftLink, hrightLink, rfl, hleft.symbols_unique hright, hleft.capacity_eq,
      hright.capacity_eq, fun address haddress => ?_, fun address hbeyond haddress => ?_, hvalues,
      fun requests bank => answers_congr hvalues rfl requests bank⟩
    · exact hleft.get?_eq hright haddress (haddress.trans_le hlarge)
    · refine hright.get?_of_le ?_ haddress
      rw [hright.cursor_eq, ← hleft.cursor_eq, hneed]
      exact hsmall.trans hbeyond

/-- A block of one cell and its length take four cells, so they fit from a capacity of four on. -/
theorem link_capacity_four :
    DataSection ".section data\nm db 7\nn equ $ - m\n"
        [.ofText 2 "m db 7", .ofText 3 "n equ $ - m"] [.block "m" [7], .lengthOf "n" "m"] ∧
      Declaration.Resolved [.block "m" [7], .lengthOf "n" "m"] ∧
      ∀ capacity, (∃ program, (link (.empty capacity)
        ".section data\nm db 7\nn equ $ - m\n").result = .ok program) ↔ 4 ≤ capacity := by
  have hsection : DataSection ".section data\nm db 7\nn equ $ - m\n"
      [.ofText 2 "m db 7", .ofText 3 "n equ $ - m"] [.block "m" [7], .lengthOf "n" "m"] := by
    refine ⟨declarations?_eq_some_iff_behind.mp (by decide +kernel), .cons ?_ (.cons ?_ .nil)⟩
    · exact Declaration.ofWords_eq_ok_iff.mp (by decide +kernel)
    · exact Declaration.ofWords_eq_ok_iff.mp (by decide +kernel)
  have htargets : Declaration.Resolved [.block "m" [7], .lengthOf "n" "m"] := by
    intro before name target after hsplit
    rcases before with _ | ⟨first, _ | ⟨second, rest⟩⟩
    · cases (List.cons.inj hsplit).1
    · obtain ⟨rfl, hlast⟩ := List.cons.inj hsplit
      cases hlast
      exact List.mem_singleton_self _
    · simp at hsplit
  exact ⟨hsection, htargets, (link_capacity hsection htargets).1⟩

end ChannelAsm.Program
