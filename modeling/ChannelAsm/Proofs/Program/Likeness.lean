import ChannelAsm.Proofs.Machine.Equivalence
import ChannelAsm.Proofs.Program.Meaning

/-!
# Texts that link alike

Linking sees of a line what decides its words and whether it is a sentinel, and tells a line that is
refused in a diagnostic. So texts whose lines agree in a key that decides both link alike, as far as
the diagnostics are looked at: `Program.link_cases`.
-/

namespace ChannelAsm

variable {Key Reason : Type} {key : Line → Key} {view : Diagnostic → Reason}
  {lines others : List Line}

/-- Lines of the same keys are laid out alike. -/
theorem Layout.mapFailure_addLines (hkey : Line.Decides key view)
    (h : lines.map key = others.map key) (layout : Layout) :
    (layout.addLines lines).mapFailure view = (layout.addLines others).mapFailure view := by
  refine Outcome.mapFailure_sequence_locate hkey (fun line other hline => ?_) h layout
  funext layout
  rw [addLine, addLine, hkey.words_eq hline]

namespace Program

/-- Lines of the same keys have declarations of the same keys. -/
theorem map_declarations? (hkey : Line.Decides key view) (h : lines.map key = others.map key) :
    (declarations? lines).map (List.map key) = (declarations? others).map (List.map key) := by
  rw [declarations?_eq_stretch?, declarations?_eq_stretch?]
  refine map_stretch? (fun line other hline => hkey.isSentinel_eq hline) ?_ h
  intro line other hline
  rw [Line.sectionName?, Line.sectionName?, hkey.words_eq hline]

/-- Lines of the same keys have events of the same keys. -/
theorem map_stretch?_label (hkey : Line.Decides key view) (h : lines.map key = others.map key)
    (label : String) :
    (stretch? (fun line => line.label? = some label) lines).map (List.map key) =
      (stretch? (fun line => line.label? = some label) others).map (List.map key) := by
  refine map_stretch? (fun line other hline => hkey.isSentinel_eq hline) ?_ h
  intro line other hline
  rw [Line.label?, Line.label?, hkey.words_eq hline]

/-- Lines of the same keys have the same labels. -/
theorem filterMap_label?_congr (hkey : Line.Decides key view)
    (h : lines.map key = others.map key) :
    lines.filterMap Line.label? = others.filterMap Line.label? := by
  induction forall₂_of_map_eq h with
  | nil => rfl
  | @cons line other lines others hline hlines ih =>
      obtain ⟨_, hrest⟩ := List.cons.inj h
      rw [List.filterMap_cons, List.filterMap_cons, ih hrest, Line.label?, Line.label?,
        hkey.words_eq hline]

/-- Texts whose declarations have the same keys link alike: both are refused with diagnostics that
look the same, or both give programs with the same memory and symbols. -/
theorem link_cases {first second : String} (hkey : Line.Decides key view)
    (hdeclared : (declarations? (Line.ofListing first)).map (List.map key) =
      (declarations? (Line.ofListing second)).map (List.map key)) (layout : Layout) :
    (∃ diagnostic other, (link layout first).result = .error diagnostic ∧
      (link layout second).result = .error other ∧ view diagnostic = view other) ∨
    ∃ left right, (link layout first).result = .ok left ∧
      (link layout second).result = .ok right ∧ left.memory = right.memory ∧
      left.symbols = right.symbols := by
  rw [link, link]
  cases hleft : declarations? (Line.ofListing first) with
  | none =>
      rw [hleft, Option.map_none, eq_comm, Option.map_eq_none_iff] at hdeclared
      rw [hdeclared]
      exact .inl ⟨_, _, rfl, rfl, rfl⟩
  | some declared =>
      rw [hleft, Option.map_some, eq_comm, Option.map_eq_some_iff] at hdeclared
      obtain ⟨others, hright, hothers⟩ := hdeclared
      have hlaid := Layout.mapFailure_addLines hkey hothers.symm layout
      rw [hright]
      dsimp only
      obtain ⟨hstate, hends⟩ := Outcome.cases_of_mapFailure_eq hlaid
      rcases hends with ⟨diagnostic, other, hfails, hfailsToo, htold⟩ | ⟨hsucceeds, hsucceedsToo⟩
      · rw [hfails, hfailsToo]
        exact .inl ⟨diagnostic, other, rfl, rfl, htold⟩
      · rw [hsucceeds, hsucceedsToo, hstate]
        exact .inr ⟨_, _, rfl, rfl, rfl, rfl⟩

end Program

end ChannelAsm
