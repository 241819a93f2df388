import ChannelAsm.Proofs.Source.Listing

/-!
# Cleaning twice

Reading a clean listing back drops one carriage return at the end of each of its lines, and nothing
else happens to it when it is cleaned again. So by `Listing.clean_clean` a clean listing is a fixed
point of cleaning exactly when none of its lines ends in a carriage return.
-/

namespace ChannelAsm.Listing

/-- The code lines of a clean listing are its lines without the carriage returns at their ends. -/
theorem retained_clean (source : String) :
    retained (clean source).toList = (cleanLines source.toList).map Text.dropReturn := by
  rw [clean, String.toList_ofList]
  exact retained_unlines_of_isCode fun _ => isCode_of_mem_cleanLines

/-- Cleaning a clean listing drops these carriage returns, and no sentinel is put or taken away. -/
theorem cleanLines_clean (source : String) :
    cleanLines (clean source).toList = (cleanLines source.toList).map Text.dropReturn := by
  rw [cleanLines_eq, retained_clean, cleanLines_eq source.toList]
  exact separate_map_separate isHeader_dropReturn (by decide) _ false id

/-- A clean listing is a fixed point exactly when none of its lines ends in a carriage return. -/
theorem clean_clean_eq_iff (source : String) :
    clean (clean source) = clean source ↔
      ∀ line ∈ cleanLines source.toList, line.getLast? ≠ some '\r' := by
  have hlines : ∀ line ∈ cleanLines source.toList, '\n' ∉ line :=
    fun _ hline => (isCode_of_mem_cleanLines hline).newline
  have hagain : ∀ line ∈ cleanLines (clean source).toList, '\n' ∉ line :=
    fun _ hline => (isCode_of_mem_cleanLines hline).newline
  calc clean (clean source) = clean source
    _ ↔ cleanLines (clean source).toList = cleanLines source.toList := by
      rw [← Text.unlines_inj hagain hlines]
      exact String.ofList_inj
    _ ↔ (cleanLines source.toList).map Text.dropReturn = (cleanLines source.toList).map id := by
      rw [cleanLines_clean, List.map_id]
    _ ↔ ∀ line ∈ cleanLines source.toList, line.getLast? ≠ some '\r' := by
      simp only [List.map_inj_left, id, Text.dropReturn_eq_self_iff]

/-- Cleaning puts no carriage return at the end of a line. -/
theorem getLast?_of_mem_cleanLines {source line : List Char} (h : line ∈ cleanLines source)
    (hretained : ∀ line ∈ retained source, line.getLast? ≠ some '\r') :
    line.getLast? ≠ some '\r' := by
  rcases mem_of_mem_cleanLines h with rfl | h
  · decide
  · exact hretained line h

/-- Cleaning twice. The second time the lines are those of the first time without the carriage
return that one may end in; each of them was a code line already, so that no sentinel is put or
taken away. It changes nothing exactly when no line ends in a carriage return, and so for every
source whose code lines do not. -/
theorem clean_clean (source : String) :
    clean source = String.ofList (Text.unlines (cleanLines source.toList)) ∧
      clean (clean source) =
        String.ofList (Text.unlines ((cleanLines source.toList).map Text.dropReturn)) ∧
      cleanLines (clean source).toList = (cleanLines source.toList).map Text.dropReturn ∧
      retained (clean source).toList = cleanLines (clean source).toList ∧
      (clean (clean source) = clean source ↔
        ∀ line ∈ cleanLines source.toList, line.getLast? ≠ some '\r') ∧
      ((∀ line ∈ retained source.toList, line.getLast? ≠ some '\r') →
        clean (clean source) = clean source) := by
  have hagain := cleanLines_clean source
  refine ⟨rfl, ?_, hagain, (retained_clean source).trans hagain.symm, clean_clean_eq_iff source, ?_⟩
  · rw [clean, hagain]
  · intro hretained
    exact (clean_clean_eq_iff source).mpr fun _ hline => getLast?_of_mem_cleanLines hline hretained

end ChannelAsm.Listing
