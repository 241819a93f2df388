import ChannelAsm.Outcome
import ChannelAsm.Proofs.Except

/-!
# Working through a list

How `Outcome.sequence` ends. `Chain` says that items succeed one after the other, and `Break` that
those before an index succeed and the item there fails. `chain_or_break` says that one of the two
always holds, `Break.index_eq` that a list breaks at one index only, and `Break.not_chain` that the
two exclude each other. What `sequence` gives is read off either, and `iterate_eq` does the same for
`iterate`, which works through a list of one item.
-/

namespace ChannelAsm.Outcome

variable {State Report Failure Reason Item : Type}

/-- `Chain step items state reports final` says that the items succeed in order from `state` to
`final` and make these reports on the way. -/
inductive Chain (step : Item → State → Outcome State Report Failure) :
    List Item → State → Array Report → State → Prop where
  | nil (state) : Chain step [] state #[] state
  | cons {item items state reached final first rest} :
      step item state = ⟨reached, first, .ok ()⟩ → Chain step items reached rest final →
      Chain step (item :: items) state (first ++ rest) final

/-- `Break step items state index item reports left failure` says that the items before the index
succeed in order from `state` and that the one at the index, which is `item`, then fails. The
reports are those of all these items, and `left` is the state after the failure. -/
def Break (step : Item → State → Outcome State Report Failure) (items : List Item) (state : State)
    (index : Nat) (item : Item) (reports : Array Report) (left : State) (failure : Failure) :
    Prop :=
  ∃ before reached last, Chain step (items.take index) state before reached ∧
    items[index]? = some item ∧ step item reached = ⟨left, last, .error failure⟩ ∧
    reports = before ++ last

variable {step : Item → State → Outcome State Report Failure} {item : Item} {items : List Item}
  {state left final : State} {reports : Array Report} {failure : Failure} {index : Nat}

/-- What items that all succeed give, however failures would be put. -/
theorem Chain.sequence_mapFailure (h : Chain step items state reports final)
    (f : Item → Failure → Reason) :
    sequence (fun item state => (step item state).mapFailure (f item)) items state =
      ⟨final, reports, .ok ()⟩ := by
  induction h with
  | nil => rfl
  | cons hstep _ ih =>
      rw [sequence_cons, hstep, mapFailure_ok, ok_andThen, ih]

/-- What items that all succeed give. -/
theorem Chain.sequence_eq (h : Chain step items state reports final) :
    sequence step items state = ⟨final, reports, .ok ()⟩ := by
  induction h with
  | nil => rfl
  | cons hstep _ ih =>
      rw [sequence_cons, hstep, ok_andThen, ih]

/-- What the items before a break and the one that breaks give, with the failure put differently.
The items behind it play no part. -/
theorem Break.sequence_mapFailure (h : Break step items state index item reports left failure)
    (f : Item → Failure → Reason) :
    sequence (fun item state => (step item state).mapFailure (f item)) items state =
      ⟨left, reports, .error (f item failure)⟩ := by
  obtain ⟨before, reached, last, hbefore, hitem, hlast, rfl⟩ := h
  -- The items are cut around the one that fails, so that those behind it are never started.
  have hsplit : items = items.take index ++ item :: items.drop (index + 1) := by
    obtain ⟨hlt, hget⟩ := List.getElem?_eq_some_iff.mp hitem
    rw [← hget, ← List.drop_eq_getElem_cons hlt, List.take_append_drop]
  rw [hsplit, sequence_append, hbefore.sequence_mapFailure f, ok_andThen, sequence_cons, hlast,
    mapFailure_error, error_andThen]

/-- What items that break give. -/
theorem Break.sequence_eq (h : Break step items state index item reports left failure) :
    sequence step items state = ⟨left, reports, .error failure⟩ := by
  have hsame (item : Item) (state : State) :
      (step item state).mapFailure (fun failure => failure) = step item state := by
    rcases step item state with ⟨reached, first, failure | ⟨⟨⟩⟩⟩ <;> rfl
  simpa only [hsame] using h.sequence_mapFailure fun _ failure => failure

/-- Items break at once when the first of them fails. -/
theorem Break.head (hstep : step item state = ⟨left, reports, .error failure⟩) :
    Break step (item :: items) state 0 item reports left failure :=
  ⟨#[], state, reports, .nil state, rfl, hstep, Array.empty_append.symm⟩

/-- Items break one place further behind an item that succeeds. -/
theorem Break.cons {first : Item} {reached : State} {early : Array Report}
    (hstep : step first state = ⟨reached, early, .ok ()⟩)
    (h : Break step items reached index item reports left failure) :
    Break step (first :: items) state (index + 1) item (early ++ reports) left failure := by
  obtain ⟨before, met, last, hbefore, hget, hlast, rfl⟩ := h
  exact ⟨early ++ before, met, last, .cons hstep hbefore, hget, hlast,
    Array.append_assoc.symm⟩

/-- Items either all succeed in order or break at some index. -/
theorem chain_or_break (step : Item → State → Outcome State Report Failure) (items : List Item)
    (state : State) :
    (∃ reports final, Chain step items state reports final) ∨
      ∃ index item reports left failure,
        Break step items state index item reports left failure := by
  induction items generalizing state with
  | nil => exact .inl ⟨_, _, .nil state⟩
  | cons item items ih =>
      rcases hstep : step item state with ⟨reached, first, failure | ⟨⟨⟩⟩⟩
      · exact .inr ⟨0, item, first, reached, failure, .head hstep⟩
      · rcases ih reached with ⟨rest, final, hrest⟩ | ⟨index, other, rest, left, failure, hbreak⟩
        · exact .inl ⟨_, _, .cons hstep hrest⟩
        · exact .inr ⟨index + 1, other, first ++ rest, left, failure, hbreak.cons hstep⟩

/-- A chain ends in one way only. -/
theorem Chain.unique {other : Array Report} {last : State}
    (h : Chain step items state reports final) (hother : Chain step items state other last) :
    reports = other ∧ final = last := by
  have heq := h.sequence_eq.symm.trans hother.sequence_eq
  simp only [Outcome.mk.injEq, and_true] at heq
  exact ⟨heq.2, heq.1⟩

/-- Chains are joined where the first ends. -/
theorem Chain.append {others : List Item} {more : Array Report} {last : State}
    (h : Chain step items state reports final) (hothers : Chain step others final more last) :
    Chain step (items ++ others) state (reports ++ more) last := by
  induction h with
  | nil => rwa [List.nil_append, Array.empty_append]
  | cons hstep _ ih =>
      rw [List.cons_append, Array.append_assoc]
      exact .cons hstep (ih hothers)

/-- A chain passes every item with a success. -/
theorem Chain.getElem (h : Chain step items state reports final)
    (hitem : items[index]? = some item) :
    ∃ before reached first next, Chain step (items.take index) state before reached ∧
      step item reached = ⟨next, first, .ok ()⟩ := by
  induction h generalizing index with
  | nil => simp at hitem
  | @cons head tail start middle stop first rest hstep _ ih =>
      cases index with
      | zero =>
          cases Option.some.inj hitem
          exact ⟨#[], start, first, middle, .nil start, hstep⟩
      | succ index =>
          obtain ⟨before, reached, more, next, hbefore, hnext⟩ := ih hitem
          exact ⟨first ++ before, reached, more, next, .cons hstep hbefore, hnext⟩

/-- Items that break do not all succeed. -/
theorem Break.not_chain (h : Break step items state index item reports left failure) :
    ¬ Chain step items state other final := by
  intro hchain
  obtain ⟨before, reached, last, hbefore, hitem, hlast, rfl⟩ := h
  obtain ⟨_, _, _, _, hsame, hnext⟩ := hchain.getElem hitem
  obtain ⟨_, rfl⟩ := hbefore.unique hsame
  rw [hlast] at hnext
  cases hnext

/-- Where a list breaks depends on the items up to there only. -/
theorem Break.congr {others : List Item}
    (h : Break step items state index item reports left failure)
    (heq : items.take (index + 1) = others.take (index + 1)) :
    Break step others state index item reports left failure := by
  obtain ⟨before, reached, last, hbefore, hitem, hlast, rfl⟩ := h
  have htake (list : List Item) : list.take index = (list.take (index + 1)).take index := by
    rw [List.take_take, Nat.min_eq_left (Nat.le_succ index)]
  have hget (list : List Item) : list[index]? = (list.take (index + 1))[index]? :=
    (List.getElem?_take_of_lt (Nat.lt_succ_self index)).symm
  refine ⟨before, reached, last, ?_, ?_, hlast, rfl⟩
  · rw [htake, ← heq, ← htake]
    exact hbefore
  · rw [hget, ← heq, ← hget]
    exact hitem

/-- Where a list breaks does not depend on the items behind it. -/
theorem Break.append (h : Break step items state index item reports left failure)
    (others : List Item) : Break step (items ++ others) state index item reports left failure := by
  refine h.congr ?_
  obtain ⟨_, _, _, _, hitem, _, _⟩ := h
  obtain ⟨hlt, _⟩ := List.getElem?_eq_some_iff.mp hitem
  exact (List.take_append_of_le_length hlt).symm

/-- A list breaks at one index only. -/
theorem Break.index_eq {other : Nat} {item' : Item} {reports' : Array Report} {left' : State}
    {failure' : Failure} (h : Break step items state index item reports left failure)
    (hother : Break step items state other item' reports' left' failure') : other = index := by
  by_contra hne
  -- The earlier of two breaks would lie within the chain that leads to the later one.
  rcases Nat.lt_or_gt_of_ne hne with hlt | hlt
  · obtain ⟨_, _, _, hchain, _⟩ := h
    have heq : items.take (other + 1) = (items.take index).take (other + 1) := by
      rw [List.take_take, Nat.min_eq_left hlt]
    exact (hother.congr heq).not_chain hchain
  · obtain ⟨_, _, _, hchain, _⟩ := hother
    have heq : items.take (index + 1) = (items.take other).take (index + 1) := by
      rw [List.take_take, Nat.min_eq_left hlt]
    exact (h.congr heq).not_chain hchain

/-- Repeating an item is working through a list of it. -/
theorem iterate_eq (step : Item → State → Outcome State Report Failure) (item : Item)
    (times count : Nat) (outcome : Outcome State Report Failure) :
    (iterate (step item) times count outcome).2 =
      outcome.andThen (sequence step (List.replicate times item)) := by
  induction times generalizing count outcome with
  | zero => exact (andThen_done outcome).symm
  | succ times ih =>
      have hsplit : sequence step (List.replicate (times + 1) item) =
          fun state => (step item state).andThen (sequence step (List.replicate times item)) := by
        funext state
        rw [List.replicate_succ, sequence_cons]
      rw [iterate, hsplit, ← andThen_assoc]
      rcases outcome with ⟨state, reports, failure | ⟨⟨⟩⟩⟩
      · rfl
      · exact ih (count + 1) _

/-- Going on has the failures of both parts. -/
theorem failsOnly_andThen {allowed : Failure → Prop} {outcome : Outcome State Report Failure}
    {next : State → Outcome State Report Failure} (h : FailsOnly allowed outcome.result)
    (hnext : ∀ state, FailsOnly allowed (next state).result) :
    FailsOnly allowed (outcome.andThen next).result := by
  rcases outcome with ⟨reached, first, failure | ⟨⟨⟩⟩⟩
  · exact h
  · exact hnext reached

end ChannelAsm.Outcome
