import ChannelAsm.Command.Terminal
import ChannelAsm.Proofs.Text.Trim

/-!
# What terminals can be relied on for

`Terminal.standard` is a terminal that takes a line without a tab as it is typed and completes a
start that leaves one word to choose from.
-/

namespace ChannelAsm.Terminal

/-- Equal texts have all in common. -/
theorem commonStart_self (text : List Char) : commonStart text text = text := by
  induction text with
  | nil => rfl
  | cons first rest ih => rw [commonStart, if_pos rfl, ih]

/-- The common start of copies of a text is that text. -/
theorem foldl_commonStart {text : List Char} {others : List (List Char)}
    (h : ∀ other ∈ others, other = text) : others.foldl commonStart text = text := by
  induction others with
  | nil => rfl
  | cons other others ih =>
      obtain ⟨rfl, hothers⟩ := List.forall_mem_cons.mp h
      rw [List.foldl_cons, commonStart_self, ih hothers]

variable {candidates : String → List String} {start word : String}

/-- A start is completed to the only word that it leaves, and to a blank where this is offered just
once. -/
theorem complete_eq (hunbroken : ∀ c ∈ start.toList, c ∉ wordBreaks)
    (hmem : word ∈ candidates start) (honly : ∀ other ∈ candidates start, other = word) :
    complete candidates start.toList = word.toList ∨
      complete candidates start.toList = word.toList ++ [' '] := by
  have hword : (start.toList.reverse.takeWhile (· ∉ wordBreaks)).reverse = start.toList := by
    rw [List.takeWhile_eq_self_iff.mpr, List.reverse_reverse]
    intro c hc
    simpa using hunbroken c (List.mem_reverse.mp hc)
  unfold complete
  rw [hword]
  dsimp only
  rw [Nat.sub_self, List.take_zero, String.ofList_toList]
  -- All candidates are copies of the word, which matters only for whether a blank follows it.
  generalize candidates start = offered at hmem honly
  rcases offered with _ | ⟨first, _ | ⟨second, others⟩⟩
  · cases hmem
  · obtain rfl := honly first List.mem_cons_self
    exact .inr rfl
  · obtain ⟨rfl, hothers⟩ := List.forall_mem_cons.mp honly
    refine .inl (foldl_commonStart fun other hother => ?_)
    obtain ⟨copy, hcopy, rfl⟩ := List.mem_map.mp hother
    rw [hothers copy hcopy]

/-- A tab behind a start completes it. -/
theorem completedLine_tab (hunbroken : ∀ c ∈ start.toList, c ∉ wordBreaks) :
    completedLine candidates (start ++ "\t") =
      String.ofList (complete candidates start.toList) := by
  have hpieces : (start ++ "\t").toList.splitOn '\t' = [start.toList, []] := by
    have hstart : start.toList.splitOn '\t' = [start.toList] :=
      List.splitOnP_eq_singleton fun c hc => by
        have hbreak : c ∉ wordBreaks := hunbroken c hc
        simpa using fun heq : c = '\t' => hbreak (heq ▸ by decide)
    rw [String.toList_append]
    exact (List.splitOnP_append_cons start.toList [] (by decide)).trans
      (congrArg (· ++ [[]]) hstart)
  rw [completedLine, hpieces]
  change String.ofList (complete candidates ([] ++ start.toList) ++ []) = _
  rw [List.nil_append, List.append_nil]

/-- Without a tab there is nothing to complete. -/
theorem standard_verbatim : standard.Verbatim where
  typed_eq candidates input h := by
    have hpieces : input.toList.splitOn '\t' = [input.toList] :=
      List.splitOnP_eq_singleton fun c hc => by
        simpa using fun heq : c = '\t' => h (heq ▸ hc)
    change completedLine candidates input = input
    rw [completedLine, hpieces]
    exact String.ofList_toList

/-- A start that leaves one word is completed to it. -/
theorem standard_completes : standard.Completes where
  typed_tab candidates start word hunbroken hmem honly := by
    change completedLine candidates (start ++ "\t") = word ∨
      completedLine candidates (start ++ "\t") = word ++ " "
    rw [completedLine_tab hunbroken]
    rcases complete_eq hunbroken hmem honly with hcomplete | hcomplete
    · rw [hcomplete, String.ofList_toList]
      exact .inl rfl
    · rw [hcomplete, String.ofList_append, String.ofList_toList]
      exact .inr rfl

end ChannelAsm.Terminal
