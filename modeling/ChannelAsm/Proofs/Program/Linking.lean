import ChannelAsm.Proofs.Image.Placement
import ChannelAsm.Proofs.Outcome
import ChannelAsm.Proofs.Program.Section

/-!
# Linking

Linking declares the lines of the first data section one by one. `Links` lists the ways in which
this ends, and what each leaves: no header is found, a line is refused, or all lines are declared.
`Layout.Adds` accounts for the log, one record for every symbol that a layout has got. By
`links_link` linking ends in one of these ways, and by `Links.link_eq` in no other.
-/

namespace ChannelAsm

/-! ## Lines of a listing -/

namespace Line

/-- The line is the header of a data section: its first two words say so. -/
def OpensData (line : Line) : Prop :=
  ∃ rest, line.words = ".section" :: "data" :: rest

/-- A line names the section of a name when this is its second word, behind the marker. -/
theorem sectionName?_eq_some_iff {line : Line} {name : String} :
    line.sectionName? = some name ↔ ∃ rest, line.words = sectionMarker :: name :: rest := by
  unfold sectionName?
  split
  · rename_i word other rest hwords
    rw [hwords]
    simp only [Option.ite_none_right_eq_some, Option.some.injEq, List.cons.injEq]
    constructor
    · intro h
      obtain ⟨hword, hname⟩ := h
      exact ⟨rest, hword, hname, rfl⟩
    · intro h
      obtain ⟨_, hword, hname, _⟩ := h
      exact ⟨hword, hname⟩
  · rename_i hshort
    simp only [reduceCtorEq, false_iff, not_exists]
    exact fun rest => hshort sectionMarker name rest

/-- The lines of a listing are those of the text that hold more than blanks, trimmed. -/
theorem map_text_ofListing (text : String) :
    (ofListing text).map (·.text) =
      ((Text.lines text.toList).filter fun line => !line.all Text.isBlank).map fun line =>
        Text.trimmed (String.ofList line) := by
  apply List.ext_getElem
  · simp [ofListing]
  · intro index _ _
    simp [ofListing]

/-- The lines of a listing are numbered from one. -/
theorem map_number_ofListing (text : String) :
    (ofListing text).map (·.number) = List.range' 1 (ofListing text).length := by
  apply List.ext_getElem
  · simp
  · intro index _ _
    simp [ofListing, Nat.add_comm]

end Line

/-! ## Symbols of a layout -/

namespace Layout

/-- From one layout to the other these symbols were declared, and each was recorded. -/
structure Adds (start : Layout) (added : List Symbol) (records : Array Record) (final : Layout) :
    Prop where
  symbols : final.symbols.toList = start.symbols.toList ++ added
  records : records.toList = added.map .symbolDeclared

variable {layout start middle final left : Layout} {first second : List Symbol}
  {lines : List Line} {line : Line} {reports early late : Array Record} {fault : Fault}
  {index : Nat}

/-- Nothing is recorded when nothing is declared. -/
theorem Adds.refl (layout : Layout) : layout.Adds [] #[] layout :=
  ⟨(List.append_nil _).symm, rfl⟩

/-- What is declared in two parts is declared. -/
theorem Adds.trans (h : start.Adds first early middle) (hnext : middle.Adds second late final) :
    start.Adds (first ++ second) (early ++ late) final := by
  constructor
  · rw [hnext.symbols, h.symbols, List.append_assoc]
  · rw [Array.toList_append, h.records, hnext.records, List.map_append]

/-- A line declares one symbol, or fails and changes nothing. -/
theorem addLine_cases (layout : Layout) (line : Line) :
    (∃ symbol reports final, layout.addLine line = ⟨final, reports, .ok ()⟩ ∧
        layout.Adds [symbol] reports final) ∨
      ∃ fault, layout.addLine line = .fail layout fault := by
  cases hline : Declaration.ofWords line.words >>= layout.accept with
  | error fault => exact .inr ⟨fault, addLine_of_error hline⟩
  | ok entry =>
      exact .inl ⟨_, _, _, addLine_of_ok hline, SymbolTable.toList_push .., rfl⟩

/-- Lines that succeed one after the other are laid out. -/
theorem addLines_of_chain
    (h : Outcome.Chain (fun line layout => addLine layout line) lines layout reports final) :
    layout.addLines lines = ⟨final, reports, .ok ()⟩ :=
  h.sequence_mapFailure fun line fault => fault.diagnostic.locate line

/-- Lines of which one fails are laid out up to there, and the fault is located at that line. -/
theorem addLines_of_break
    (h : Outcome.Break (fun line layout => addLine layout line) lines layout index line reports
      left fault) :
    layout.addLines lines = ⟨left, reports, .error (fault.diagnostic.locate line)⟩ :=
  h.sequence_mapFailure fun line fault => fault.diagnostic.locate line

/-- Lines that succeed one after the other declare a symbol each. -/
theorem exists_adds_of_chain
    (h : Outcome.Chain (fun line layout => addLine layout line) lines layout reports final) :
    ∃ added, added.length = lines.length ∧ layout.Adds added reports final := by
  induction h with
  | nil layout => exact ⟨[], rfl, .refl layout⟩
  | @cons line rest layout reached final first more hstep _ ih =>
      obtain ⟨added, hlength, hadds⟩ := ih
      rcases layout.addLine_cases line with ⟨symbol, _, _, hline, hfirst⟩ | ⟨fault, hline⟩
      · rw [hstep] at hline
        cases hline
        exact ⟨symbol :: added, congrArg Nat.succ hlength, hfirst.trans hadds⟩
      · rw [hstep] at hline
        cases hline

/-- The lines before one that fails declare a symbol each, and the failing line none. -/
theorem exists_adds_of_break
    (h : Outcome.Break (fun line layout => addLine layout line) lines layout index line reports
      left fault) :
    ∃ added, added.length = index ∧ layout.Adds added reports left := by
  obtain ⟨before, reached, last, hbefore, hget, hlast, rfl⟩ := h
  have hlast : reached.addLine line = ⟨left, last, .error fault⟩ := hlast
  obtain ⟨added, hlength, hadds⟩ := exists_adds_of_chain hbefore
  obtain ⟨hindex, _⟩ := List.getElem?_eq_some_iff.mp hget
  rw [List.length_take_of_le (Nat.le_of_lt hindex)] at hlength
  rcases reached.addLine_cases line with ⟨_, _, _, hline, _⟩ | ⟨other, hline⟩
  · rw [hlast] at hline
    cases hline
  · rw [hlast] at hline
    cases hline
    -- The failing line has no record, so those of the lines before it are all there are.
    rw [Array.append_empty]
    exact ⟨added, hlength, hadds⟩

end Layout

namespace Program

/-- A line opens a data section when that is the section it names. -/
theorem opensData_iff {line : Line} :
    line.OpensData ↔ line.sectionName? = some dataSection :=
  Line.sectionName?_eq_some_iff.symm

/-- The declarations of a program stand behind the first header of a data section. -/
theorem declarations?_eq_some_iff_behind {lines declared : List Line} :
    declarations? lines = some declared ↔ Behind Line.OpensData lines declared := by
  have hopens : Line.OpensData = fun line => line.sectionName? = some dataSection :=
    funext fun line => propext opensData_iff
  rw [declarations?_eq_some_iff, hopens]

/-- There are no declarations exactly when no line is such a header. -/
theorem declarations?_eq_none_iff {lines : List Line} :
    declarations? lines = none ↔ ∀ line ∈ lines, ¬ line.OpensData := by
  have hdrop : declarations? lines = none ↔
      lines.dropWhile (fun line => line.sectionName? ≠ some dataSection) = [] := by
    rw [declarations?]
    cases lines.dropWhile fun line => line.sectionName? ≠ some dataSection with
    | nil => exact iff_of_true rfl rfl
    | cons first following =>
        exact iff_of_false (Option.some_ne_none _) (List.cons_ne_nil first following)
  rw [hdrop, List.dropWhile_eq_nil_iff]
  simp [opensData_iff]

/-- `Links layout lines linked` says how linking lines into a layout ends. -/
inductive Links (layout : Layout) (lines : List Line) : Linked → Prop where
  /-- There is no header of a data section, which is not located and not recorded. -/
  | headless :
      (∀ line ∈ lines, ¬ line.OpensData) →
      Links layout lines ⟨#[], .error { code := .missingDataSection }⟩
  /-- A declaration fails behind others that succeed. Its fault is located at its line. -/
  | refused {declared : List Line} {index : Nat} {line : Line} {records : Array Record}
      {added : List Symbol} {left : Layout} {fault : Fault} :
      Behind Line.OpensData lines declared →
      Outcome.Break (fun line layout => Layout.addLine layout line) declared layout index line
        records left fault →
      added.length = index → layout.Adds added records left →
      Links layout lines ⟨records, .error
        { code := fault.code, line := some line.number, statement := line.text,
          message := fault.message }⟩
  /-- All declarations succeed, one after the other, and a summary ends the log. -/
  | laid {declared : List Line} {records : Array Record} {added : List Symbol} {final : Layout} :
      Behind Line.OpensData lines declared →
      Outcome.Chain (fun line layout => Layout.addLine layout line) declared layout records final →
      added.length = declared.length → layout.Adds added records final →
      Links layout lines
        ⟨records.push (.linked final.symbols.size final.cursor final.memory.capacity),
          .ok ⟨lines, final.memory, final.symbols⟩⟩

variable {layout : Layout} {text : String} {linked : Linked}

/-- Linking ends in one of these ways. -/
theorem links_link (layout : Layout) (text : String) :
    Links layout (Line.ofListing text) (link layout text) := by
  rw [link]
  cases hdeclared : declarations? (Line.ofListing text) with
  | none => exact .headless (declarations?_eq_none_iff.mp hdeclared)
  | some declared =>
      have hbehind := declarations?_eq_some_iff_behind.mp hdeclared
      dsimp only
      rcases Outcome.chain_or_break (fun line layout => Layout.addLine layout line) declared layout
        with ⟨records, final, hchain⟩ | ⟨index, line, records, left, fault, hbreak⟩
      · rw [Layout.addLines_of_chain hchain]
        obtain ⟨added, hlength, hadds⟩ := Layout.exists_adds_of_chain hchain
        exact .laid hbehind hchain hlength hadds
      · rw [Layout.addLines_of_break hbreak]
        obtain ⟨added, hlength, hadds⟩ := Layout.exists_adds_of_break hbreak
        exact .refused hbehind hbreak hlength hadds

/-- Linking ends in no other way. -/
theorem Links.link_eq (h : Links layout (Line.ofListing text) linked) :
    link layout text = linked := by
  cases h with
  | headless hnone =>
      rw [link, declarations?_eq_none_iff.mpr hnone]
      rfl
  | refused hbehind hbreak =>
      rw [link, declarations?_eq_some_iff_behind.mpr hbehind]
      dsimp only
      rw [Layout.addLines_of_break hbreak]
      rfl
  | laid hbehind hchain =>
      rw [link, declarations?_eq_some_iff_behind.mpr hbehind]
      dsimp only
      rw [Layout.addLines_of_chain hchain]

/-- The records of declarations are for debugging. A record for information comes behind them when
linking succeeds, and none when it does not. -/
theorem Links.map_level {lines : List Line} (h : Links layout lines linked) :
    ∃ count, linked.records.toList.map Record.level =
      List.replicate count .debug ++ if linked.result.isOk then [.info] else [] := by
  have hlevels : Record.level ∘ Record.symbolDeclared = fun _ => .debug := rfl
  cases h with
  | headless => exact ⟨0, rfl⟩
  | @refused _ _ _ _ added _ _ _ _ _ hadds =>
      refine ⟨added.length, ?_⟩
      rw [hadds.records, List.map_map, hlevels, List.map_const']
      exact (List.append_nil _).symm
  | @laid _ _ added _ _ _ _ hadds =>
      refine ⟨added.length, ?_⟩
      rw [Array.toList_push, hadds.records, List.map_append, List.map_map, hlevels,
        List.map_const']
      rfl

/-- Linking a text into any layout is declaring one line after the other. The lines are those of the
text that hold more than blanks, trimmed and numbered from one. Without a header of a data section
linking fails and tells no place. Otherwise the lines behind the first header, up to a sentinel or
the end, are declared in order: linking succeeds when all of them do, with the memory and the
symbols that they leave, and otherwise fails with the fault of the first that fails, at its number
and with its text. The log has a record for every symbol that was declared, for debugging, and one
more with the numbers of symbols and of cells and the capacity, for information, exactly when
linking succeeds. -/
theorem link_eq_iff_links (layout : Layout) (text : String) :
    let lines := Line.ofListing text
    lines.map (·.text) =
        ((Text.lines text.toList).filter fun line => !line.all Text.isBlank).map
          (fun line => Text.trimmed (String.ofList line)) ∧
      lines.map (·.number) = List.range' 1 lines.length ∧
      (∀ linked, link layout text = linked ↔ Links layout lines linked) ∧
      ∃ count, (link layout text).records.toList.map Record.level =
        List.replicate count .debug ++ if (link layout text).result.isOk then [.info] else [] := by
  refine ⟨Line.map_text_ofListing text, Line.map_number_ofListing text, fun linked => ⟨?_, ?_⟩,
    (links_link layout text).map_level⟩
  · intro h
    exact h ▸ links_link layout text
  · intro h
    exact h.link_eq

end Program

end ChannelAsm
