import ChannelAsm.Proofs.Machine.History

/-!
# Programs that run alike

A run sees of a program what its operands stand for and the texts of its blocks.
`Program.Equivalent` relates programs that agree on both. Whatever is asked of them, they report the
same, leave the same bank and end alike, but for the number of the line at which a run stops:
`Equivalent.answers_eq`. Where the lines themselves are the same there is no such difference, which
is `answers_congr`.
-/

namespace ChannelAsm

/-- The diagnostic without the number of a line. -/
def Diagnostic.unplaced (diagnostic : Diagnostic) : Diagnostic :=
  { diagnostic with line := none }

/-- What a located diagnostic tells besides the number depends on the text of the line. -/
theorem Diagnostic.unplaced_locate {line other : Line} (h : line.text = other.text)
    (diagnostic : Diagnostic) :
    (diagnostic.locate line).unplaced = (diagnostic.locate other).unplaced := by
  have hstatement (line : Line) : (diagnostic.atLine (some line.number)).statement =
      diagnostic.statement := rfl
  simp only [locate, inStatement, hstatement, h]
  split <;> rfl

/-- Lines of the same text have the same words. -/
theorem Line.words_congr {line other : Line} (h : line.text = other.text) :
    line.words = other.words := by
  rw [line.words_eq, other.words_eq, h]

/-- Lists with the same keys have the same key at every place. -/
theorem forall₂_of_map_eq {Item Key : Type} {key : Item → Key} {items others : List Item}
    (h : items.map key = others.map key) :
    List.Forall₂ (fun item other => key item = key other) items others := by
  rwa [← List.forall₂_eq_eq_eq, List.forall₂_map_left_iff, List.forall₂_map_right_iff] at h

/-- `Line.Decides key view` says that lines of the same key have the same words and the same role,
and that a diagnostic which is located at them is the same to the view. -/
structure Line.Decides {Key Reason : Type} (key : Line → Key) (view : Diagnostic → Reason) :
    Prop where
  words_eq : ∀ {line other}, key line = key other → line.words = other.words
  isSentinel_eq : ∀ {line other}, key line = key other → line.isSentinel = other.isSentinel
  view_eq : ∀ {line other}, key line = key other → ∀ diagnostic : Diagnostic,
    view (diagnostic.locate line) = view (diagnostic.locate other)

/-- The text of a line decides all but the number that a diagnostic tells. -/
theorem Line.decides_text : Line.Decides (·.text) Diagnostic.unplaced where
  words_eq := Line.words_congr
  isSentinel_eq := fun htext => congrArg (· == Line.sentinel) htext
  view_eq := Diagnostic.unplaced_locate

namespace Outcome

variable {State Report Failure Reason Item Twin : Type}

/-- Outcomes that agree but for how failures are put leave the same state, and both fail or none. -/
theorem cases_of_mapFailure_eq {f : Failure → Reason} {left right : Outcome State Report Failure}
    (h : left.mapFailure f = right.mapFailure f) : left.state = right.state ∧
      ((∃ failure other, left.result = .error failure ∧ right.result = .error other ∧
        f failure = f other) ∨ left.result = .ok () ∧ right.result = .ok ()) := by
  rcases left with ⟨state, reports, failure | ⟨⟨⟩⟩⟩ <;>
    rcases right with ⟨reached, records, other | ⟨⟨⟩⟩⟩ <;> simp_all

/-- A failure that is put differently twice is put differently once. -/
theorem mapFailure_mapFailure {Other : Type} (f : Failure → Reason) (g : Reason → Other)
    (outcome : Outcome State Report Failure) :
    (outcome.mapFailure f).mapFailure g = outcome.mapFailure fun failure => g (f failure) := by
  rcases outcome with ⟨state, reports, failure | ⟨⟨⟩⟩⟩ <;> rfl

/-- A failure of what follows may be put differently afterwards. -/
theorem mapFailure_andThen (f : Failure → Reason) (outcome : Outcome State Report Failure)
    (next : State → Outcome State Report Failure) :
    (outcome.andThen next).mapFailure f =
      (outcome.mapFailure f).andThen fun state => (next state).mapFailure f := by
  rcases outcome with ⟨state, reports, failure | ⟨⟨⟩⟩⟩ <;> rfl

/-- A failure of a list is put differently where it arises. -/
theorem mapFailure_sequence (f : Failure → Reason)
    (step : Item → State → Outcome State Report Failure) (items : List Item) (state : State) :
    (sequence step items state).mapFailure f =
      sequence (fun item state => (step item state).mapFailure f) items state := by
  induction items generalizing state with
  | nil => rfl
  | cons item items ih =>
      rw [sequence_cons, mapFailure_andThen, sequence_cons]
      exact congrArg _ (funext ih)

/-- Lists whose items do the same, one by one, do the same. -/
theorem sequence_congr {step : Item → State → Outcome State Report Failure}
    {twin : Twin → State → Outcome State Report Failure} {alike : Item → Twin → Prop}
    (h : ∀ item other, alike item other → step item = twin other) {items : List Item}
    {others : List Twin} (hitems : List.Forall₂ alike items others) :
    sequence step items = sequence twin others := by
  induction hitems with
  | nil => rfl
  | cons hitem _ ih =>
      funext state
      rw [sequence_cons, sequence_cons, h _ _ hitem, ih]

/-- Rows of lines of the same keys do the same where single lines do, as far as the view of a
diagnostic goes. -/
theorem mapFailure_sequence_locate {Key : Type} {key : Line → Key} {view : Diagnostic → Reason}
    (hkey : Line.Decides key view) {step twin : Line → State → Outcome State Report Fault}
    (hstep : ∀ line other, key line = key other → step line = twin other)
    {lines others : List Line} (h : lines.map key = others.map key) (state : State) :
    (sequence (fun line state => (step line state).mapFailure (·.diagnostic.locate line)) lines
        state).mapFailure view =
      (sequence (fun line state => (twin line state).mapFailure (·.diagnostic.locate line)) others
        state).mapFailure view := by
  rw [mapFailure_sequence, mapFailure_sequence]
  refine congrFun (sequence_congr (fun line other hline => ?_) (forall₂_of_map_eq h)) state
  funext state
  simp only [mapFailure_mapFailure, hstep line other hline, hkey.view_eq hline]

end Outcome

namespace Program

variable {left right : Program}

section

variable (hvalues : ∀ token, left.values token = right.values token)
include hvalues

/-- An instruction comes down to the same action where operands stand for the same. -/
theorem action_congr (mnemonic : Mnemonic) (arguments : List String) :
    left.action mnemonic arguments = right.action mnemonic arguments := by
  cases mnemonic <;> simp only [action, arithmetic, hvalues]

/-- Lines of the same text do the same where operands stand for the same. -/
theorem step_congr {line other : Line} (h : line.text = other.text) (bank : Bank) :
    left.step line bank = right.step other bank := by
  simp only [step, Line.words_congr h, h, action_congr hvalues]

/-- Rows of lines of the same texts do the same, but for the number that a diagnostic tells. -/
theorem mapFailure_runLines {lines others : List Line}
    (h : lines.map (·.text) = others.map (·.text)) (bank : Bank) :
    (left.runLines lines bank).mapFailure Diagnostic.unplaced =
      (right.runLines others bank).mapFailure Diagnostic.unplaced :=
  Outcome.mapFailure_sequence_locate Line.decides_text
    (fun _ _ htext => funext (step_congr hvalues htext)) h bank

/-- Programs of the same lines answer alike where operands stand for the same. -/
theorem answers_congr (hlines : left.lines = right.lines) (requests : List Request) (bank : Bank) :
    left.answers requests bank = right.answers requests bank ∧
      left.bankAfter requests bank = right.bankAfter requests bank := by
  have hstep : left.step = right.step := by
    funext line bank
    exact step_congr hvalues rfl bank
  have hrun : left.runLines = right.runLines := by
    funext lines bank
    rw [runLines, runLines, hstep]
  have hanswer : left.answer = right.answer := by
    funext request bank
    cases request with
    | reset => rfl
    | run name => simp only [answer, run, event?, hlines, hrun]
  refine ⟨?_, by rw [bankAfter, bankAfter, hanswer]⟩
  induction requests generalizing bank with
  | nil => rfl
  | cons request rest ih => rw [answers, answers, hanswer, ih]

end

/-- Runs of an event look alike when its blocks have lines of the same keys and lines of the same
keys, once the event has started, look alike. -/
theorem run_congr {Key Look : Type} {key : Line → Key}
    (look : Outcome Bank Report Diagnostic → Look) {name : String} {bank : Bank}
    (hblock : (left.event? name).map (List.map key) = (right.event? name).map (List.map key))
    (hlines : ∀ lines others, lines.map key = others.map key →
      look ((Outcome.reporting bank #[.record (.eventStarted (Event.label name)
          lines.length)]).andThen (left.runLines lines)) =
        look ((Outcome.reporting bank #[.record (.eventStarted (Event.label name)
          others.length)]).andThen (right.runLines others))) :
    look (left.run name bank) = look (right.run name bank) := by
  rw [run, run]
  cases hleft : left.event? name with
  | none =>
      rw [hleft, Option.map_none, eq_comm, Option.map_eq_none_iff] at hblock
      rw [hblock]
  | some lines =>
      rw [hleft, Option.map_some, eq_comm, Option.map_eq_some_iff] at hblock
      obtain ⟨others, hright, hothers⟩ := hblock
      rw [hright]
      exact hlines lines others hothers.symm

/-- The operands of the programs stand for the same, and their events have blocks of the same
texts. -/
structure Equivalent (left right : Program) : Prop where
  values_eq : ∀ token, left.values token = right.values token
  texts_eq : ∀ name, (left.event? name).map (List.map Line.text) =
    (right.event? name).map (List.map Line.text)

/-- Equivalent programs run an event alike, but for the number that a diagnostic tells. -/
theorem Equivalent.run_eq (h : left.Equivalent right) (name : String) (bank : Bank) :
    (left.run name bank).mapFailure Diagnostic.unplaced =
      (right.run name bank).mapFailure Diagnostic.unplaced := by
  refine run_congr (·.mapFailure Diagnostic.unplaced) (h.texts_eq name) ?_
  intro lines others htexts
  have hlength : lines.length = others.length := by
    simpa using congrArg List.length htexts
  simp only [Outcome.mapFailure_andThen, mapFailure_runLines h.values_eq htexts, hlength]

/-- Programs whose runs look alike answer every request alike, and leave the same bank, when the
look of a run shows the bank that it leaves. -/
theorem answers_eq_of_run {View : Type} {view : Outcome Bank Report Diagnostic → View}
    (hstate : ∀ {outcome other}, view outcome = view other → outcome.state = other.state)
    (hrun : ∀ name bank, view (left.run name bank) = view (right.run name bank))
    (requests : List Request) (bank : Bank) :
    (left.answers requests bank).map view = (right.answers requests bank).map view ∧
      left.bankAfter requests bank = right.bankAfter requests bank := by
  induction requests generalizing bank with
  | nil =>
      -- Left to `rfl` alone, the two would be compared by unfolding a whole run.
      rw [answers, answers, bankAfter, bankAfter, List.foldl_nil, List.foldl_nil]
      exact ⟨rfl, rfl⟩
  | cons request rest ih =>
      have hanswer : view (left.answer request bank) = view (right.answer request bank) := by
        cases request with
        | run name => exact hrun name bank
        | reset => rfl
      obtain ⟨hanswers, hbanks⟩ := ih (left.answer request bank).state
      refine ⟨?_, ?_⟩
      · rw [answers, answers, List.map_cons, List.map_cons, hanswer, ← hstate hanswer, hanswers]
      · rw [bankAfter, bankAfter, List.foldl_cons, List.foldl_cons, ← hstate hanswer]
        exact hbanks

/-- Equivalent programs answer every request alike, but for the number that a diagnostic tells, and
leave the same bank. -/
theorem Equivalent.answers_eq (h : left.Equivalent right) (requests : List Request) (bank : Bank) :
    (left.answers requests bank).map (·.mapFailure Diagnostic.unplaced) =
        (right.answers requests bank).map (·.mapFailure Diagnostic.unplaced) ∧
      left.bankAfter requests bank = right.bankAfter requests bank :=
  answers_eq_of_run (fun hview => (Outcome.cases_of_mapFailure_eq hview).1) h.run_eq requests bank

end Program

end ChannelAsm
