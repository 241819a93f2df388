import ChannelAsm.Proofs.Program.Meaning
import ChannelAsm.Proofs.Source.Listing

/-!
# Rebuilding a program from its listing

A program keeps the trimmed lines of the source it was built from. Written one behind the other they
are a clean listing, and by `link_listing` that listing links to the same program.
-/

namespace ChannelAsm.Program

variable {capacity : Nat} {source : String} {program : Program}

/-- The texts of the lines, each ended by a line feed. -/
def listing (program : Program) : String :=
  String.ofList (Text.unlines (program.lines.map fun line => line.text.toList))

/-- Linking sees no more of a text than its lines. -/
theorem link_congr {text other : String} (h : Line.ofListing text = Line.ofListing other)
    (layout : Layout) : link layout text = link layout other := by
  rw [link, link, h]

/-- A program that is built from a source has the lines of its clean form. -/
theorem lines_of_build (h : (build capacity source).result = .ok program) :
    program.lines = Line.numbered 0 (Listing.cleanLines source.toList) :=
  (lines_of_link h).trans (Line.ofListing_clean source)

/-- The listing of such a program is that clean form with every line trimmed. -/
theorem listing_of_build (h : (build capacity source).result = .ok program) :
    program.listing =
      String.ofList (Text.unlines ((Listing.cleanLines source.toList).map Text.trim)) := by
  rw [listing, lines_of_build h, Line.map_text_numbered]

/-- The listing of a program that is built from a source is clean already, and linking it with the
same capacity gives the program back: its lines with their numbers, its memory and its symbols. -/
theorem link_listing (h : (build capacity source).result = .ok program) :
    Listing.clean program.listing = program.listing ∧
      (link (.empty capacity) program.listing).result = .ok program := by
  have hlisting := listing_of_build h
  have hlines : Line.ofListing program.listing = Line.ofListing (Listing.clean source) := by
    have hcode : ∀ text ∈ (Listing.cleanLines source.toList).map Text.trim,
        Listing.IsCode text := by
      intro text htext
      obtain ⟨line, hline, rfl⟩ := List.mem_map.mp htext
      exact (Listing.isCode_of_mem_cleanLines hline).trim
    rw [hlisting, Line.ofListing_unlines hcode, Line.ofListing_clean]
    exact Line.numbered_congr (by simp [Function.comp_def, Text.trim_trim]) 0
  refine ⟨?_, ?_⟩
  · rw [hlisting, Listing.clean, String.toList_ofList, Listing.cleanLines_unlines_trim]
  · rw [link_congr hlines]
    exact h

/-- A source with an indented sentinel, carriage returns, comments and a no-break space. -/
theorem link_listing_padded :
    ∃ program,
      (build 2
        ".section\u00a0data ;\r\nm db 7\r\r\n ---\n; .section\n.section t\r\n int m;-"
        ).result = .ok program ∧
      Listing.clean program.listing = program.listing ∧
      (link (.empty 2) program.listing).result = .ok program := by
  have hbuilds : (build 2
      ".section\u00a0data ;\r\nm db 7\r\r\n ---\n; .section\n.section t\r\n int m;-"
      ).result.isOk = true := by
    decide +kernel
  obtain ⟨program, hbuild⟩ := exists_of_isOk hbuilds
  exact ⟨program, hbuild, link_listing hbuild⟩

end ChannelAsm.Program
