import ChannelAsm.Proofs.Machine.History
import ChannelAsm.Proofs.Machine.Reading
import Mathlib.Data.List.DropRight

/-!
# The console ledger

What is pushed on the console channel is printed by the next flush, the newest value first, unless
a reset comes before it. `Console.Accounts` is the ledger of a history, kept primitive by primitive:
the values that wait are those pushed since the last flush or reset, and since the last reset as
many characters are printed as values have been pushed and no longer wait. It holds at every point
of every history by `accounts_of_follows`, which `console_of_history` spells out.
-/

namespace ChannelAsm

/-! ## Characters -/

/-- The character is the one whose code is the value, or the replacement character when there is no
such character. -/
def Spells (value : Int32) (c : Char) : Prop :=
  (c.toNat : Int) = value.toInt ∨ (∀ other : Char, (other.toNat : Int) ≠ value.toInt) ∧ c = '\uFFFD'

/-- A value below the middle of its range, read without a sign, is not negative. -/
theorem toInt_eq_of_lt {value : Int32} (h : value.toUInt32.toNat < 0x80000000) :
    value.toInt = value.toUInt32.toNat := by
  rw [← Int32.toInt_toBitVec, BitVec.toInt_eq_toNat_cond]
  exact if_pos (by show 2 * value.toUInt32.toNat < 2 ^ 32; omega)

/-- A value that is not negative is the same number when it is read without a sign. -/
theorem toUInt32_toNat_of_toInt_eq {value : Int32} {number : Nat}
    (h : (number : Int) = value.toInt) : value.toUInt32.toNat = number := by
  rw [← Int32.toInt_toBitVec, BitVec.toInt_eq_toNat_cond] at h
  have hbound := value.toUInt32.toNat_lt
  have hnat : value.toBitVec.toNat = value.toUInt32.toNat := rfl
  rw [hnat] at h
  split at h
  · exact (Int.ofNat_inj.mp h).symm
  · -- In the upper half of the range the number would be negative.
    omega

/-- Every value is printed as the character that it stands for. -/
theorem spells_glyph (value : Int32) : Spells value (glyph value) := by
  unfold glyph
  split
  · rename_i hvalid
    have hsmall : value.toUInt32.toNat < 0x80000000 := by
      have hbound : value.toUInt32.toNat < 55296 ∨
          57343 < value.toUInt32.toNat ∧ value.toUInt32.toNat < 1114112 := hvalid
      omega
    exact .inl (toInt_eq_of_lt hsmall).symm
  · rename_i hvalid
    refine .inr ⟨fun other hother => hvalid ?_, rfl⟩
    have hcode : value.toUInt32 = other.val := by
      apply UInt32.toNat_inj.mp
      exact toUInt32_toNat_of_toInt_eq hother
    rw [hcode]
    exact other.valid

/-- A value stands for one character only. -/
theorem Spells.unique {value : Int32} {c d : Char} (h : Spells value c) (hother : Spells value d) :
    c = d := by
  rcases h with hcode | ⟨hnone, rfl⟩
  · rcases hother with hcodeToo | ⟨hnone, -⟩
    · exact Char.toNat_inj.mp (Int.ofNat_inj.mp (hcode.trans hcodeToo.symm))
    · exact absurd hcode (hnone c)
  · rcases hother with hcode | ⟨-, rfl⟩
    · exact absurd hcode (hnone d)
    · rfl

/-- Characters that spell values in their places are those that the values stand for. -/
theorem eq_map_glyph {values : List Int32} {text : List Char}
    (h : List.Forall₂ Spells values text) : text = values.map glyph := by
  induction h with
  | nil => rfl
  | @cons value c values text hspells _ ih =>
      rw [List.map_cons, ← ih, hspells.unique (spells_glyph value)]

/-- The characters that a report prints. -/
def Report.characters : Report → List Char
  | .output (.print text) => text.toList
  | _ => []

namespace Console

/-- `Prints values reports` says that the reports print the values in order, and nothing when there
are none. -/
inductive Prints : List Int32 → Array Report → Prop where
  | nothing : Prints [] #[]
  | text {values : List Int32} {text : String} :
      values ≠ [] → List.Forall₂ Spells values text.toList →
      Prints values #[.output (.print text)]

/-- Printing values prints as many characters. -/
theorem Prints.length_characters {values : List Int32} {reports : Array Report}
    (h : Prints values reports) :
    (reports.toList.flatMap Report.characters).length = values.length := by
  cases h with
  | nothing => rfl
  | text _ hspells =>
      rw [List.flatMap_singleton, hspells.length_eq]
      rfl

/-- A flush prints the values above the first entry, which alone is left. -/
theorem flush_eq {bank : Bank} {bottom : Int32} {waiting : List Int32}
    (h : (bank.stack .console).toList = bottom :: waiting) :
    ∃ reports, bank.flush = .reporting (bank.set .console (.singleton bottom)) reports ∧
      Prints waiting.reverse reports := by
  -- The newest entry comes first, so what is drained is in reverse order.
  have hentries : (bank.stack .console).entries = waiting.reverse ++ [bottom] := by
    rw [← List.reverse_inj, List.reverse_append, List.reverse_reverse]
    exact h
  rw [Bank.flush, Stack.drain_eq hentries]
  cases hvalues : waiting.reverse with
  | nil => exact ⟨#[], rfl, .nothing⟩
  | cons value rest =>
      refine ⟨_, rfl, .text (List.cons_ne_nil value rest) ?_⟩
      rw [String.toList_ofList, List.forall₂_map_right_iff, List.forall₂_same]
      intro other _
      exact spells_glyph other

/-! ## The ledger -/

/-- The value that a moment puts on the console channel. A push that fails puts none. -/
def pushed? (moment : Bank.Moment) : Option Int32 :=
  match moment.item, moment.outcome.result with
  | .push .console value, .ok () => some value
  | _, _ => none

/-- The values that moments put on the console channel, in order. -/
def pushes (moments : List Bank.Moment) : List Int32 :=
  moments.filterMap pushed?

/-- The number of characters that moments print. -/
def printed (moments : List Bank.Moment) : Nat :=
  ((Outcome.Moment.reports moments).flatMap Report.characters).length

/-- The primitive resets the bank. -/
def resets : Primitive → Bool
  | .reset => true
  | _ => false

/-- The primitive leaves nothing on the console channel but its first entry. -/
def clears : Primitive → Bool
  | .flush => true
  | .reset => true
  | _ => false

/-- A primitive that does not clear the console does not reset the bank. -/
theorem resets_eq_false {primitive : Primitive} (h : clears primitive = false) :
    resets primitive = false := by
  cases primitive with
  | reset => cases h
  | _ => rfl

/-- The moments behind the last with such a primitive. -/
def since (ends : Primitive → Bool) (moments : List Bank.Moment) : List Bank.Moment :=
  moments.rtakeWhile fun moment => !ends moment.item

/-- The ledger balances: the console channel holds its first entry and what is pushed since it was
cleared, and since the last reset every value that is pushed is printed or waits. -/
structure Accounts (moments : List Bank.Moment) (bank : Bank) : Prop where
  stack_eq : (bank.stack .console).toList = Bank.base :: pushes (since clears moments)
  balance : printed (since resets moments) + (pushes (since clears moments)).length =
    (pushes (since resets moments)).length

variable {ends : Primitive → Bool} {moments : List Bank.Moment} {moment : Bank.Moment}

/-- The values pushed are those of both parts. -/
theorem pushes_concat (moments : List Bank.Moment) (moment : Bank.Moment) :
    pushes (moments ++ [moment]) = pushes moments ++ (pushed? moment).toList := by
  rw [pushes, List.filterMap_append, List.filterMap_cons]
  cases pushed? moment <;> rfl

/-- The characters printed are those of both parts. -/
theorem printed_concat (moments : List Bank.Moment) (moment : Bank.Moment) :
    printed (moments ++ [moment]) = printed moments + printed [moment] := by
  rw [printed, Outcome.Moment.reports_append, List.flatMap_append, List.length_append]
  rfl

/-- Nothing is behind a moment that ends the ledger's page. -/
theorem since_concat_of_true (h : ends moment.item = true) :
    since ends (moments ++ [moment]) = [] :=
  List.rtakeWhile_concat_neg _ _ moment (by simp [h])

/-- Any other moment is behind those before it. -/
theorem since_concat_of_false (h : ends moment.item = false) :
    since ends (moments ++ [moment]) = since ends moments ++ [moment] :=
  List.rtakeWhile_concat_pos _ _ moment (by simp [h])

/-- A moment keeps the ledger when it does not clear the console, prints nothing, and adds to the
channel what it pushes. -/
theorem Accounts.concat {bank : Bank} (h : Accounts moments bank) (moment : Bank.Moment)
    (hitem : clears moment.item = false) (hprinted : printed [moment] = 0)
    (hstack : (moment.outcome.state.stack .console).toList =
      (bank.stack .console).toList ++ (pushed? moment).toList) :
    Accounts (moments ++ [moment]) moment.outcome.state := by
  have hbalance := h.balance
  constructor
  · rw [since_concat_of_false hitem, pushes_concat, hstack, h.stack_eq, List.cons_append]
  · rw [since_concat_of_false hitem, since_concat_of_false (resets_eq_false hitem), pushes_concat,
      pushes_concat, printed_concat, hprinted, List.length_append, List.length_append]
    omega

/-- A moment keeps the ledger when it only touches other channels, and when it fails. -/
theorem Accounts.concat_of_none {bank : Bank} (h : Accounts moments bank) (moment : Bank.Moment)
    (hitem : clears moment.item = false) (hprinted : printed [moment] = 0)
    (hpushed : pushed? moment = none)
    (hstack : moment.outcome.state.stack .console = bank.stack .console) :
    Accounts (moments ++ [moment]) moment.outcome.state := by
  refine h.concat moment hitem hprinted ?_
  rw [hpushed, hstack]
  exact (List.append_nil _).symm

/-- A primitive that fails puts nothing on the console. -/
theorem pushed?_fail (primitive : Primitive) (bank : Bank) (fault : Fault) :
    pushed? ⟨primitive, .fail bank fault⟩ = none := by
  unfold pushed?
  split
  · rename_i hresult
    cases hresult
  · rfl

/-- A push keeps the ledger: only one that succeeds on the console counts. -/
theorem Accounts.concat_push {bank : Bank} (h : Accounts moments bank) (channel : Channel)
    (value : Int32) :
    Accounts (moments ++ [⟨.push channel value, (Primitive.push channel value).perform bank⟩])
      ((Primitive.push channel value).perform bank).state := by
  rw [Primitive.perform]
  cases hpush : bank.push channel value with
  | error fault => exact h.concat_of_none _ rfl rfl (pushed?_fail ..) rfl
  | ok pushed =>
      obtain ⟨_, hentries, hothers⟩ := Bank.push_eq_ok_iff.mp hpush
      by_cases hconsole : channel = .console
      · subst hconsole
        refine h.concat ⟨.push .console value, .done pushed⟩ rfl rfl ?_
        show (pushed.stack .console).toList = (bank.stack .console).toList ++ [value]
        rw [Stack.toList, hentries, List.reverse_cons]
        rfl
      · have hpushed : pushed? ⟨.push channel value, .done pushed⟩ = none := by
          cases channel with
          | console => exact absurd rfl hconsole
          | _ => rfl
        exact h.concat_of_none ⟨.push channel value, .done pushed⟩ rfl rfl hpushed
          (hothers .console hconsole)

/-- A flush keeps the ledger: what has waited is printed. -/
theorem Accounts.concat_flush {bank : Bank} (h : Accounts moments bank) :
    Accounts (moments ++ [⟨.flush, bank.flush⟩]) bank.flush.state := by
  obtain ⟨reports, hflush, hprints⟩ := flush_eq h.stack_eq
  rw [hflush]
  have hprinted :
      printed [⟨.flush, .reporting (bank.set .console (.singleton Bank.base)) reports⟩] =
        (pushes (since clears moments)).length := by
    rw [← List.length_reverse, ← hprints.length_characters, printed, Outcome.Moment.reports,
      List.flatMap_singleton]
    rfl
  have hbalance := h.balance
  constructor
  · rw [since_concat_of_true rfl]
    show ((bank.set .console (.singleton Bank.base)).stack .console).toList = _
    rw [Bank.stack_set]
    rfl
  · rw [@since_concat_of_false resets _ _ rfl, since_concat_of_true rfl, pushes_concat,
      printed_concat, hprinted]
    simpa [pushes, pushed?, Nat.add_comm] using hbalance

/-- A reset starts a new ledger. -/
theorem accounts_reset (moments : List Bank.Moment) :
    Accounts (moments ++ [⟨.reset, .done .initial⟩]) .initial := by
  constructor
  · rw [since_concat_of_true rfl, Bank.stack_initial]
    rfl
  · rw [since_concat_of_true rfl, since_concat_of_true rfl]
    rfl

/-- A primitive keeps the ledger. -/
theorem Accounts.concat_perform {bank : Bank} (h : Accounts moments bank) (primitive : Primitive) :
    Accounts (moments ++ [⟨primitive, primitive.perform bank⟩]) (primitive.perform bank).state := by
  cases primitive with
  | push channel value => exact h.concat_push channel value
  | pop source =>
      rw [Primitive.perform]
      cases hpop : bank.pop source.channel with
      | error fault => exact h.concat_of_none _ rfl rfl (pushed?_fail ..) rfl
      | ok taken =>
          obtain ⟨value, popped⟩ := taken
          obtain ⟨_, hothers⟩ := Bank.pop_eq_ok_iff.mp hpop
          have hconsole : source.channel ≠ .console := by cases source <;> decide
          exact h.concat_of_none ⟨.pop source, .done popped⟩ rfl rfl rfl
            (hothers .console hconsole)
  | look channel =>
      rw [Primitive.perform]
      cases hpeek : bank.peek channel with
      | error fault => exact h.concat_of_none _ rfl rfl (pushed?_fail ..) rfl
      | ok value => exact h.concat_of_none ⟨.look channel, .done bank⟩ rfl rfl rfl rfl
  | flush => exact h.concat_flush
  | record | exit | miss => exact h.concat_of_none _ rfl rfl rfl rfl
  | refuse fault => exact h.concat_of_none _ rfl rfl (pushed?_fail ..) rfl
  | reset => exact accounts_reset moments

/-- A fresh bank has a fresh ledger. -/
theorem accounts_nil : Accounts [] .initial := by
  constructor
  · rw [Bank.stack_initial]
    rfl
  · rfl

/-- The ledger balances after every history, at whatever point it is cut. -/
theorem accounts_of_follows
    (h : Outcome.Moment.Follows Primitive.perform .initial moments) :
    Accounts moments (Outcome.Moment.after .initial moments) := by
  -- The ledger looks back from the last moment, so moments are added at the end.
  induction moments using List.reverseRecOn with
  | nil => exact accounts_nil
  | append_singleton earlier moment ih =>
      obtain ⟨hearlier, hmoment⟩ := Outcome.Moment.follows_concat.mp h
      rw [Outcome.Moment.after_concat]
      obtain ⟨primitive, outcome⟩ := moment
      obtain rfl : outcome = primitive.perform (Outcome.Moment.after .initial earlier) := hmoment
      exact (ih hearlier).concat_perform primitive

/-! ## Lines -/

/-- The words of a line ask for a flush of the console. -/
def AsksFlush (program : Program) (words : List String) : Prop :=
  ∃ operand rest, words = "int" :: operand :: rest ∧ program.values operand = .ok [7]

/-- `Sends program bank words values` says that a line with these words, carried out on the bank,
pushes the values on the console channel in this order, as long as none of its steps fails. -/
inductive Sends (program : Program) (bank : Bank) : List String → List Int32 → Prop where
  | mov {operand : String} {values : List Int32} (rest : List String) :
      program.values operand = .ok values →
      Sends program bank ("mov" :: "eco" :: operand :: rest) values
  | add {operand : String} {value : Int32} (rest : List String) :
      program.values operand = .ok [value] →
      Sends program bank ("add" :: "eco" :: operand :: rest) [bank.newest .console + value]
  | mul {operand : String} {value : Int32} (rest : List String) :
      program.values operand = .ok [value] →
      Sends program bank ("mul" :: "eco" :: operand :: rest) [bank.newest .console * value]
  | transfer {operand : String} (rest : List String) :
      program.values operand = .ok [1] →
      Sends program bank ("int" :: operand :: rest)
        ((bank.stack .data).entries.take (bank.newest .accumulator).toInt.toNat)

/-- The value that a primitive is to push on the console channel. -/
def sent? : Primitive → Option Int32
  | .push .console value => some value
  | _ => none

/-- The values that primitives are to push on the console channel, in order. -/
def sent (primitives : List Primitive) : List Int32 :=
  primitives.filterMap sent?

/-- Pushing values on the console sends them. -/
theorem sent_pushes (values : List Int32) : sent (values.map (.push .console)) = values := by
  rw [sent, List.filterMap_map]
  exact List.filterMap_some

/-- Moving entries to the console sends as many as are asked for and there. -/
theorem sent_moves (count : Nat) (entries : List Int32) :
    sent (Primitive.moves .console count entries) = entries.take count := by
  induction count generalizing entries with
  | zero => rfl
  | succ count ih =>
      cases entries with
      | nil => rfl
      | cons value rest => exact congrArg (value :: ·) (ih rest)

/-- Primitives that do not touch the console channel send nothing. -/
theorem sent_of_within {channels : List Channel} {primitives : List Primitive}
    (h : ∀ primitive ∈ primitives, primitive.Within channels) (hconsole : .console ∉ channels) :
    sent primitives = [] := by
  refine List.filterMap_eq_nil_iff.mpr fun primitive hprimitive => ?_
  cases h primitive hprimitive with
  | @push channel value hchannel =>
      cases channel with
      | console => exact absurd hchannel hconsole
      | _ => rfl
  | _ => rfl

/-- Moving entries flushes nothing. -/
theorem flush_not_mem_moves (target : Channel) (count : Nat) (entries : List Int32) :
    .flush ∉ Primitive.moves target count entries := by
  induction count generalizing entries with
  | zero => exact List.not_mem_nil
  | succ count ih =>
      cases entries with
      | nil => simp [Primitive.moves]
      | cons value rest => simp [Primitive.moves, ih rest]

/-- An action flushes the console exactly when it asks for that service. -/
theorem flush_mem_primitives_iff {action : Action} {bank : Bank} :
    .flush ∈ action.primitives bank ↔ action = .interrupt 7 := by
  cases action with
  | push channel values => simp [Action.primitives]
  | combine operation channel value => simp [Action.primitives]
  | interrupt code =>
      rw [Action.primitives, Action.interrupt.injEq]
      cases hservice : Interrupt.ofCode? code with
      | none =>
          refine iff_of_false (by simp) ?_
          rintro rfl
          cases hservice
      | some service =>
          obtain rfl := Interrupt.ofCode?_eq_some_iff.mp hservice
          cases service with
          | exit =>
              refine iff_of_false ?_ (by decide)
              simp only [Interrupt.primitives, Primitive.leaves]
              split <;> simp
          | transfer device =>
              refine iff_of_false ?_ (by cases device <;> decide)
              simp [Interrupt.primitives, flush_not_mem_moves]
          | flush => exact iff_of_true List.mem_cons_self rfl

variable {program : Program} {line : Line} {bank : Bank} {values : List Int32}

/-- The primitives of a line that makes an instruction are those of its action, behind a record. -/
theorem primitives_of_reads {mnemonic : Mnemonic} {arguments : List String} {action : Action}
    (hwords : line.words = mnemonic.word :: arguments)
    (h : program.Reads mnemonic arguments action) (bank : Bank) :
    program.primitives line bank = .record (.executed line.text) :: action.primitives bank := by
  rw [Program.primitives, hwords]
  dsimp only
  rw [Mnemonic.ofWord?_eq_some_iff.mpr rfl]
  dsimp only
  rw [Program.action_of_reads h]

/-- A line makes an instruction, or its primitives are none but a record and a refusal. -/
theorem reads_or_idle (program : Program) (line : Line) :
    (∃ mnemonic arguments action, line.words = mnemonic.word :: arguments ∧
        program.Reads mnemonic arguments action) ∨
      ∀ bank, .flush ∉ program.primitives line bank ∧ sent (program.primitives line bank) = [] := by
  unfold Program.primitives
  cases line.words with
  | nil => exact .inr fun _ => ⟨List.not_mem_nil, rfl⟩
  | cons word arguments =>
      dsimp only
      cases hmnemonic : Mnemonic.ofWord? word with
      | none => exact .inr fun _ => ⟨by simp, rfl⟩
      | some mnemonic =>
          obtain rfl := Mnemonic.ofWord?_eq_some_iff.mp hmnemonic
          dsimp only
          cases haction : program.action mnemonic arguments with
          | error fault => exact .inr fun _ => ⟨by simp, rfl⟩
          | ok action => exact .inl ⟨_, _, _, rfl, Program.reads_of_action haction⟩

/-- What a line sends by its words is what its primitives send. -/
theorem Sends.sent_eq (h : Sends program bank line.words values) :
    sent (program.primitives line bank) = values := by
  generalize hwords : line.words = words at h
  cases h with
  | mov rest hvalues =>
      have hreads := @Program.Reads.push program .console _ _ rest hvalues
      rw [@primitives_of_reads program line .mov _ _ hwords hreads]
      exact sent_pushes values
  | add rest hvalues =>
      have hreads := @Program.Reads.combine program .add .console _ _ rest hvalues
      rw [@primitives_of_reads program line .add _ _ hwords hreads]
      rfl
  | mul rest hvalues =>
      have hreads := @Program.Reads.combine program .mul .console _ _ rest hvalues
      rw [@primitives_of_reads program line .mul _ _ hwords hreads]
      rfl
  | transfer rest hvalues =>
      rw [@primitives_of_reads program line .int _ _ hwords (.interrupt rest hvalues)]
      exact sent_moves ..

/-- What the primitives of an action send, its line sends by its words. -/
theorem sends_of_reads {mnemonic : Mnemonic} {arguments : List String} {action : Action}
    (h : program.Reads mnemonic arguments action) (bank : Bank) :
    Sends program bank (mnemonic.word :: arguments) (sent (action.primitives bank)) ∨
      sent (action.primitives bank) = [] := by
  by_cases hconsole : .console ∈ action.footprint
  · cases h with
    | push rest hvalues =>
        obtain rfl := List.mem_singleton.mp hconsole
        rw [Action.primitives, sent_pushes]
        exact .inl (.mov rest hvalues)
    | @combine operation channel operand value rest hvalues =>
        obtain rfl := List.mem_singleton.mp hconsole
        cases operation with
        | add => exact .inl (.add rest hvalues)
        | mul => exact .inl (.mul rest hvalues)
    | @interrupt operand code rest hvalues =>
        rw [Action.primitives]
        cases hservice : Interrupt.ofCode? code with
        | none => exact .inr rfl
        | some service =>
            obtain rfl := Interrupt.ofCode?_eq_some_iff.mp hservice
            cases service with
            | exit => exact absurd hconsole (by decide)
            | transfer device =>
                cases device with
                | console =>
                    refine .inl ?_
                    show Sends program bank _ (sent (Primitive.moves .console _ _))
                    rw [sent_moves]
                    exact .transfer rest hvalues
                | _ => exact absurd hconsole (by decide)
            | flush => exact .inr rfl
  · exact .inr (sent_of_within (fun _ => Action.within_of_mem) hconsole)

/-- What the primitives of a line send, it sends by its words. -/
theorem sends_or_silent (program : Program) (line : Line) (bank : Bank) :
    Sends program bank line.words (sent (program.primitives line bank)) ∨
      sent (program.primitives line bank) = [] := by
  rcases reads_or_idle program line with ⟨mnemonic, arguments, action, hwords, hreads⟩ | hidle
  · rw [primitives_of_reads hwords hreads, hwords]
    exact sends_of_reads hreads bank
  · exact .inr (hidle bank).2

/-- A line flushes the console exactly when its words ask for it. -/
theorem flush_mem_iff (program : Program) (line : Line) (bank : Bank) :
    .flush ∈ program.primitives line bank ↔ AsksFlush program line.words := by
  constructor
  · intro h
    rcases reads_or_idle program line with ⟨mnemonic, arguments, action, hwords, hreads⟩ | hidle
    · rw [primitives_of_reads hwords hreads] at h
      rcases List.mem_cons.mp h with h | h
      · cases h
      · obtain rfl := flush_mem_primitives_iff.mp h
        cases hreads with
        | interrupt rest hvalues => exact ⟨_, rest, hwords, hvalues⟩
    · exact absurd h (hidle bank).1
  · rintro ⟨operand, rest, hwords, hvalues⟩
    rw [@primitives_of_reads program line .int _ _ hwords (.interrupt rest hvalues)]
    exact List.mem_cons_of_mem _ (flush_mem_primitives_iff.mpr rfl)

end Console

/-- What a history prints. Every moment of a history is a primitive carried out on the bank that the
one before it has left; together they report what the requests do and end in the bank that these
leave. At whatever point the history is cut, the console channel holds a zero and behind it the
values that were pushed on it since the last flush or reset, in order; asking for a flush succeeds,
prints these values from the newest on, or nothing when there are none, and leaves the zero; and
since the last reset as many characters are printed as values were pushed and no longer wait. The
moments of a line are its primitives. There is a flush among them exactly when its words ask for it,
and the values that they push on the console are those that its words send there. -/
theorem Program.console_of_history (program : Program) (requests : List Request) :
    let moments := program.trace requests .initial
    Outcome.Moment.Follows Primitive.perform .initial moments ∧
      Outcome.Moment.reports moments =
        (program.answers requests .initial).flatMap (·.reports.toList) ∧
      Outcome.Moment.after .initial moments = program.bankAfter requests .initial ∧
      (∀ point,
        let earlier := moments.take point
        let bank := Outcome.Moment.after .initial earlier
        let waiting := Console.pushes (Console.since Console.clears earlier)
        let recent := Console.since Console.resets earlier
        (bank.stack .console).toList = 0 :: waiting ∧
          (∃ reports, Console.Prints waiting.reverse reports ∧
            (Action.interrupt 7).perform bank =
              ⟨bank.set .console (.singleton 0), reports, .ok ()⟩ ∧
            ∀ outcome, moments[point]? = some ⟨.flush, outcome⟩ →
              outcome = (Action.interrupt 7).perform bank) ∧
          Console.printed recent + (bank.stack .console).toList.length =
            (Console.pushes recent).length + 1) ∧
      ∀ line bank,
        program.step line bank =
            Outcome.sequence Primitive.perform (program.primitives line bank) bank ∧
          (.flush ∈ program.primitives line bank ↔ Console.AsksFlush program line.words) ∧
          (∀ values, Console.Sends program bank line.words values →
            Console.sent (program.primitives line bank) = values) ∧
          ((∀ values, ¬ Console.Sends program bank line.words values) →
            Console.sent (program.primitives line bank) = []) := by
  intro moments
  have hfollows : Outcome.Moment.Follows Primitive.perform .initial moments :=
    program.follows_trace requests .initial
  refine ⟨hfollows, program.reports_trace requests .initial,
    program.after_trace requests .initial, ?_, fun line bank => ?_⟩
  · intro point earlier bank waiting recent
    have hledger : Console.Accounts earlier bank :=
      Console.accounts_of_follows (hfollows.take point)
    have hstack : (bank.stack .console).toList = 0 :: waiting := hledger.stack_eq
    have hbalance : Console.printed recent + waiting.length = (Console.pushes recent).length :=
      hledger.balance
    obtain ⟨reports, hflush, hprints⟩ := Console.flush_eq hstack
    refine ⟨hstack, ⟨reports, hprints, hflush, ?_⟩, ?_⟩
    · intro outcome hmoment
      exact hfollows.outcome_eq hmoment
    · show Console.printed recent + (bank.stack .console).toList.length = _
      rw [hstack, List.length_cons]
      omega
  · exact ⟨program.step_eq line bank, Console.flush_mem_iff program line bank,
      fun _ => Console.Sends.sent_eq,
      fun hnone => (Console.sends_or_silent program line bank).resolve_left (hnone _)⟩

end ChannelAsm
