import ChannelAsm.Diagnostic.Fault
import Mathlib.Data.List.ReduceOption

/-!
# Details of a diagnostic

A failure is passed on from the inside out, and whoever passes it on may add a detail: a line, which
may be unknown, a statement, which may be empty, or the message. `Tells` says what a diagnostic
tells after lines, statements and messages were added. One more of a kind leaves what the other
kinds tell, so it does not matter how the kinds are mixed (`Tells.foldl_add`). From this
`detailed_eq_first` says that the first line and the first statement that are given are kept, and
how the diagnostic is shown then.
-/

namespace ChannelAsm.Diagnostic

/-! ## Details and what they give -/

/-- Something that is added to a diagnostic. -/
inductive Detail where
  | line (number? : Option Nat)
  | statement (text : String)
  | message (text : String)

namespace Detail

/-- The lines that are added, in order, with the unknown ones. -/
def lines (details : List Detail) : List (Option Nat) :=
  details.filterMap fun
    | line number? => some number?
    | _ => none

/-- The statements that are added, in order, with the empty ones. -/
def statements (details : List Detail) : List String :=
  details.filterMap fun
    | statement text => some text
    | _ => none

/-- The messages that are added, in order. -/
def messages (details : List Detail) : List String :=
  details.filterMap fun
    | message text => some text
    | _ => none

end Detail

/-- The text, unless it is empty: an empty text stands for none. -/
def given (text : String) : Option String :=
  if text = "" then none else some text

/-- The diagnostic with one more detail. -/
def add (diagnostic : Diagnostic) : Detail → Diagnostic
  | .line number? => diagnostic.atLine number?
  | .statement text => diagnostic.inStatement text
  | .message text => diagnostic.withMessage text

/-- The diagnostic of a failure, with the details that are added to it from the inside out. -/
def detailed (code : ErrorCode) (details : List Detail) : Diagnostic :=
  details.foldl add { code }

/-- What is shown behind the title: a part for each of the three that is there, in this order. -/
def parts (line? : Option Nat) (message? statement? : Option String) : List String :=
  [line?.map fun number => " IN " ++ number.repr, message?.map fun text => "; " ++ text,
    statement?.map fun text => ": `" ++ text ++ "`"].reduceOption

/-! ## What is shown -/

/-- An empty text gives none. -/
theorem given_empty : given "" = none :=
  rfl

/-- Any other text is given. -/
theorem given_of_ne {text : String} (h : text ≠ "") : given text = some text :=
  if_neg h

/-- What is given of a text is the text. -/
theorem getD_given (text : String) : (given text).getD "" = text := by
  by_cases h : text = ""
  · rw [h, given_empty, Option.getD_none]
  · rw [given_of_ne h, Option.getD_some]

/-- A part that tells a text is there unless the text is empty. -/
theorem getD_map_given (text : String) (tell : String → String) :
    ((given text).map tell).getD "" = if text = "" then "" else tell text := by
  by_cases h : text = ""
  · rw [if_pos h, h, given_empty, Option.map_none, Option.getD_none]
  · rw [if_neg h, given_of_ne h, Option.map_some, Option.getD_some]

/-- A part that is not there adds nothing to what is joined. -/
theorem join_reduceOption_cons (part? : Option String) (others : List (Option String)) :
    String.join (part? :: others).reduceOption =
      part?.getD "" ++ String.join others.reduceOption := by
  cases part? with
  | none => rw [List.reduceOption_cons_of_none, Option.getD_none, String.empty_append]
  | some part => rw [List.reduceOption_cons_of_some, Option.getD_some, String.join_cons]

/-- A diagnostic is shown as its title and the parts that are there. -/
theorem render_eq (diagnostic : Diagnostic) :
    diagnostic.render = diagnostic.code.title ++ String.join
      (parts diagnostic.line (given diagnostic.message) (given diagnostic.statement)) := by
  have hrender : diagnostic.render = diagnostic.code.title ++
      (diagnostic.line.map fun number => " IN " ++ number.repr).getD "" ++
      ((given diagnostic.message).map fun text => "; " ++ text).getD "" ++
      ((given diagnostic.statement).map fun text => ": `" ++ text ++ "`").getD "" := by
    rw [getD_map_given, getD_map_given, render]
    cases diagnostic.line <;> rfl
  rw [hrender, parts, join_reduceOption_cons, join_reduceOption_cons, join_reduceOption_cons,
    List.reduceOption_nil, String.join_nil, String.append_empty, String.append_assoc,
    String.append_assoc]

/-! ## One detail -/

/-- A line is taken when none was given before. -/
theorem line_atLine (diagnostic : Diagnostic) (number? : Option Nat) :
    (diagnostic.atLine number?).line = diagnostic.line.or number? :=
  Option.orElse_eq_or

/-- A statement is taken when none was given before. -/
theorem given_inStatement (diagnostic : Diagnostic) (text : String) :
    given (diagnostic.inStatement text).statement =
      (given diagnostic.statement).or (given text) := by
  by_cases h : diagnostic.statement = ""
  · rw [inStatement, if_pos h, h, given_empty, Option.none_or]
  · rw [inStatement, if_neg h, given_of_ne h, Option.some_or]

/-- A statement leaves the rest of a diagnostic. -/
theorem inStatement_eq (diagnostic : Diagnostic) (text : String) :
    diagnostic.inStatement text =
      { diagnostic with statement := (diagnostic.inStatement text).statement } := by
  rw [inStatement]
  split <;> rfl

/-- The diagnostic tells of a failure of the code what lines, statements and messages give: the
first line, the first statement and the last message. -/
structure Tells (code : ErrorCode) (lines : List (Option Nat)) (statements messages : List String)
    (diagnostic : Diagnostic) : Prop where
  code_eq : diagnostic.code = code
  line_eq : diagnostic.line = lines.findSome? id
  given_statement : given diagnostic.statement = statements.findSome? given
  message_eq : diagnostic.message = messages.getLast?.getD ""

variable {code : ErrorCode} {lines : List (Option Nat)} {statements messages : List String}
  {diagnostic : Diagnostic}

/-- The diagnostic of a bare failure tells nothing but its code. -/
theorem tells_bare (code : ErrorCode) : Tells code [] [] [] { code } where
  code_eq := rfl
  line_eq := rfl
  given_statement := rfl
  message_eq := rfl

/-- One more line is told if it is the first that is given. -/
theorem Tells.atLine (h : Tells code lines statements messages diagnostic)
    (number? : Option Nat) :
    Tells code (lines ++ [number?]) statements messages (diagnostic.atLine number?) where
  code_eq := h.code_eq
  line_eq := by
    rw [line_atLine, h.line_eq, List.findSome?_append, List.findSome?_singleton, id_eq]
  given_statement := h.given_statement
  message_eq := h.message_eq

/-- One more statement is told if it is the first that is given. -/
theorem Tells.inStatement (h : Tells code lines statements messages diagnostic) (text : String) :
    Tells code lines (statements ++ [text]) messages (diagnostic.inStatement text) where
  code_eq := by rw [inStatement_eq, h.code_eq]
  line_eq := by rw [inStatement_eq, h.line_eq]
  given_statement := by
    rw [given_inStatement, h.given_statement, List.findSome?_append, List.findSome?_singleton]
  message_eq := by rw [inStatement_eq, h.message_eq]

/-- One more message is told in any case. -/
theorem Tells.withMessage (h : Tells code lines statements messages diagnostic) (text : String) :
    Tells code lines statements (messages ++ [text]) (diagnostic.withMessage text) where
  code_eq := h.code_eq
  line_eq := h.line_eq
  given_statement := h.given_statement
  message_eq := by rw [List.getLast?_concat, Option.getD_some, Diagnostic.withMessage]

/-- What a diagnostic tells is all that there is to it. -/
theorem Tells.eq (h : Tells code lines statements messages diagnostic) :
    diagnostic =
      { code
        line := lines.findSome? id
        statement := (statements.findSome? given).getD ""
        message := messages.getLast?.getD "" } := by
  have hstatement : diagnostic.statement = (statements.findSome? given).getD "" := by
    rw [← h.given_statement, getD_given]
  rw [← h.code_eq, ← h.line_eq, ← hstatement, ← h.message_eq]

/-! ## Any details -/

/-- A diagnostic to which details are added tells what their lines, statements and messages give
after those before. -/
theorem Tells.foldl_add (h : Tells code lines statements messages diagnostic)
    (details : List Detail) :
    Tells code (lines ++ Detail.lines details) (statements ++ Detail.statements details)
      (messages ++ Detail.messages details) (details.foldl Diagnostic.add diagnostic) := by
  induction details generalizing lines statements messages diagnostic with
  | nil =>
      change Tells code (lines ++ []) (statements ++ []) (messages ++ []) diagnostic
      rwa [List.append_nil, List.append_nil, List.append_nil]
  | cons detail details ih =>
      -- A detail is of one kind, and goes to the end of the list of that kind.
      cases detail with
      | line number? =>
          have hnext := ih (h.atLine number?)
          rwa [List.append_assoc] at hnext
      | statement text =>
          have hnext := ih (h.inStatement text)
          rwa [List.append_assoc statements] at hnext
      | message text =>
          have hnext := ih (h.withMessage text)
          rwa [List.append_assoc messages] at hnext

/-- The diagnostic of a failure tells what the lines, the statements and the messages among its
details give. -/
theorem tells_detailed (code : ErrorCode) (details : List Detail) :
    Tells code (Detail.lines details) (Detail.statements details) (Detail.messages details)
      (detailed code details) :=
  (tells_bare code).foldl_add details

/-- The innermost location of a failure is kept. Whatever details are added to it, with one message
at most, and however lines, statements and the message are mixed: its diagnostic has the first line
that is given, the first statement that is given, and the message. It is shown as the title with a
part for each of these that is there. The message is added where there is none yet. -/
theorem detailed_eq_first (code : ErrorCode) (details : List Detail)
    (h : (Detail.messages details).length ≤ 1) :
    detailed code details =
        { code
          line := (Detail.lines details).findSome? id
          statement := ((Detail.statements details).findSome? given).getD ""
          message := (Detail.messages details).head?.getD "" } ∧
      (detailed code details).render = code.title ++ String.join
        (parts ((Detail.lines details).findSome? id)
          (given ((Detail.messages details).head?.getD ""))
          ((Detail.statements details).findSome? given)) ∧
      ∀ before text behind, details = before ++ .message text :: behind →
        (detailed code before).message = "" := by
  have htells := tells_detailed code details
  have hmessage : (Detail.messages details).getLast?.getD "" =
      (Detail.messages details).head?.getD "" := by
    match Detail.messages details, h with
    | [], _ => rfl
    | [message], _ => rfl
  refine ⟨?_, ?_, fun before text behind hdetails => ?_⟩
  · rw [htells.eq, hmessage]
  · rw [render_eq, htells.code_eq, htells.line_eq, htells.given_statement, htells.message_eq,
      hmessage]
  · have hbefore : Detail.messages before = [] := by
      have hmessages : Detail.messages details =
          Detail.messages before ++ text :: Detail.messages behind := by
        rw [hdetails]
        exact List.filterMap_append
      rw [hmessages, List.length_append, List.length_cons] at h
      exact List.eq_nil_of_length_eq_zero (by omega)
    rw [(tells_detailed code before).message_eq, hbefore]
    rfl

/-- Details of all kinds, with an unknown line and an empty statement first. -/
def mixedDetails : List Detail :=
  [.line none, .statement "", .message "msg", .line (some 4), .line (some 9),
    .statement "mov eax msg", .statement "int 0"]

/-- An unknown line and an empty statement leave room for others, and these are kept. -/
theorem detailed_eq_first_mixedDetails :
    (Detail.messages mixedDetails).length ≤ 1 ∧
      detailed .pointerNotFound mixedDetails = ⟨.pointerNotFound, some 4, "mov eax msg", "msg"⟩ ∧
      (detailed .pointerNotFound mixedDetails).render =
        "POINTER NOT FOUND IN 4; msg: `mov eax msg`" ∧
      (detailed .pointerNotFound [.line none, .statement ""]).message = "" := by
  have h : (Detail.messages mixedDetails).length ≤ 1 := by decide
  obtain ⟨hdetailed, hrender, hmessage⟩ := detailed_eq_first .pointerNotFound mixedDetails h
  exact ⟨h, hdetailed, hrender, hmessage [.line none, .statement ""] "msg" _ rfl⟩

-- A fault that is located at a line has been given its message and then the line.
example (fault : Fault) (line : Line) : fault.diagnostic.locate line =
    detailed fault.code
      [.message fault.message, .line (some line.number), .statement line.text] :=
  rfl

end ChannelAsm.Diagnostic
