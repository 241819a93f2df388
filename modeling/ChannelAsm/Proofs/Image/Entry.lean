import ChannelAsm.Image.Layout

/-!
# Entries

What the declarations of a data section mean without a memory. An entry is a declaration whose
target, if it has one, has been measured; `extend?` measures declarations in order against the
entries before them, and `denote` is the meaning of an operand over entries. How entries lie in a
memory is `images`, their cells one behind the other, and `symbols`, which name those cells.
-/

namespace ChannelAsm

/-- A declaration that is carried out. -/
inductive Entry where
  | block (name : String) (values : List Int32)
  /-- The number of values of another name. -/
  | length (name : String) (measured : Nat)
  deriving DecidableEq, Repr

namespace Entry

/-- The name that is declared. -/
def name : Entry → String
  | block name _ => name
  | length name _ => name

/-- The values that the name stands for. -/
def values : Entry → List Int32
  | block _ values => values
  | length _ measured => [Int32.ofNat measured]

/-- The cells of an entry: the values and a terminator behind them, or a free cell and the length
behind it. -/
def image : Entry → List Int32
  | block _ values => values ++ [-1]
  | length _ measured => [0, Int32.ofNat measured]

/-- The number of free cells in front. -/
def gap : Entry → Nat
  | block .. => 0
  | length .. => 1

/-- The cells that are written, which stand behind the free ones. -/
def written : Entry → List Int32
  | block _ values => values ++ [-1]
  | length _ measured => [Int32.ofNat measured]

/-- The symbol of an entry whose cells start at the address: a block starts there and has as many
cells as values, a length starts one cell behind and has one. -/
def symbolAt (start : Nat) : Entry → Symbol
  | block name values => ⟨name, start, values.length⟩
  | length name _ => ⟨name, start + 1, 1⟩

/-- The cells of entries, one entry behind the other. -/
def images (entries : List Entry) : List Int32 :=
  entries.flatMap image

/-- The symbols of entries whose cells stand one entry behind the other from an address on. -/
def symbols (start : Nat) : List Entry → List Symbol
  | [] => []
  | entry :: rest => entry.symbolAt start :: symbols (start + entry.image.length) rest

/-- The first entry of a name. -/
def named? (entries : List Entry) (name : String) : Option Entry :=
  entries.find? (·.name = name)

/-- The value of the digits of a numeral, or the fault that tells the whole token. -/
def numeral (token : String) (base : Nat) (digits : String) : Except Fault (List Int32) :=
  match Text.int32? base digits.toList with
  | some value => .ok [value]
  | none => .error (.invalidLiteral token)

/-- What an operand means over entries: the value of a numeral, and otherwise the values of the
first entry of that name. -/
def denote (entries : List Entry) (token : String) : Except Fault (List Int32) :=
  match Operand.ofToken token with
  | .hexadecimal digits => numeral token 16 digits
  | .decimal digits => numeral token 10 digits
  | .symbol _ =>
      match named? entries token with
      | some entry => .ok entry.values
      | none => .error (.pointerNotFound token)

end Entry

/-- The entry that a declaration makes behind others. There is none for the length of a name that
they do not declare. -/
def Declaration.measured? (earlier : List Entry) : Declaration → Option Entry
  | block name values => some (.block name values)
  | lengthOf name target =>
      (Entry.named? earlier target).map fun measured => .length name measured.values.length

/-- The entry that a declaration makes has the name that is declared. -/
theorem Declaration.name_of_measured? {earlier : List Entry} {declaration : Declaration}
    {entry : Entry} (h : declaration.measured? earlier = some entry) :
    entry.name = declaration.name := by
  cases declaration with
  | block =>
      cases h
      rfl
  | lengthOf =>
      obtain ⟨_, _, rfl⟩ := Option.map_eq_some_iff.mp h
      rfl

namespace Entry

/-- Entries with those that declarations make behind them, in order. -/
def extend? (earlier : List Entry) : List Declaration → Option (List Entry)
  | [] => some earlier
  | declaration :: rest =>
      (declaration.measured? earlier).bind fun entry => extend? (earlier ++ [entry]) rest

/-- Entries are as many as the declarations that make them, under the same names. -/
theorem map_name_extend? {entries final : List Entry} {declarations : List Declaration}
    (h : extend? entries declarations = some final) :
    final.map name = entries.map name ++ declarations.map Declaration.name := by
  induction declarations generalizing entries with
  | nil =>
      cases h
      exact (List.append_nil _).symm
  | cons declaration rest ih =>
      obtain ⟨entry, hentry, hrest⟩ := Option.bind_eq_some_iff.mp h
      rw [ih hrest, List.map_append, List.append_assoc, List.map_cons,
        Declaration.name_of_measured? hentry]
      rfl

/-- The cells of an entry are the free ones and those that are written. -/
theorem image_eq (entry : Entry) :
    entry.image = List.replicate entry.gap 0 ++ entry.written := by
  cases entry <;> rfl

/-- A symbol has its entry's name. -/
@[simp]
theorem name_symbolAt (start : Nat) (entry : Entry) : (entry.symbolAt start).name = entry.name := by
  cases entry <;> rfl

/-- A symbol's cells are as many as its entry's values. -/
@[simp]
theorem length_symbolAt (start : Nat) (entry : Entry) :
    (entry.symbolAt start).length = entry.values.length := by
  cases entry <;> rfl

/-- A symbol's cells start behind the free ones. -/
@[simp]
theorem offset_symbolAt (start : Nat) (entry : Entry) :
    (entry.symbolAt start).offset = start + entry.gap := by
  cases entry <;> rfl

/-- The values of an entry are the first of the cells that are written. -/
theorem take_written (entry : Entry) :
    entry.written.take entry.values.length = entry.values := by
  cases entry <;> simp [written, values]

/-- The values of an entry are no more than the cells that are written. -/
theorem length_values_le (entry : Entry) : entry.values.length ≤ entry.written.length := by
  cases entry <;> simp [written, values]

/-- An entry takes the free cells and those that are written. -/
theorem length_image (entry : Entry) :
    entry.image.length = entry.gap + entry.written.length := by
  rw [image_eq, List.length_append, List.length_replicate]

/-- The cells of two lists of entries stand one list behind the other. -/
theorem images_append (first second : List Entry) :
    images (first ++ second) = images first ++ images second :=
  List.flatMap_append

/-- The cells of entries are the first's and those of the rest. -/
theorem images_cons (entry : Entry) (rest : List Entry) :
    images (entry :: rest) = entry.image ++ images rest :=
  List.flatMap_cons

/-- The symbols of two lists of entries, the second's behind the first's cells. -/
theorem symbols_append (start : Nat) (first second : List Entry) :
    symbols start (first ++ second) =
      symbols start first ++ symbols (start + (images first).length) second := by
  induction first generalizing start with
  | nil => rfl
  | cons entry rest ih =>
      rw [List.cons_append, symbols, ih, symbols, List.cons_append, images_cons,
        List.length_append, Nat.add_assoc]

/-- Every symbol lies within the cells of its entries. -/
theorem bounds_of_mem_symbols {start : Nat} {entries : List Entry} {symbol : Symbol}
    (h : symbol ∈ symbols start entries) :
    start ≤ symbol.offset ∧ symbol.offset + symbol.length ≤ start + (images entries).length := by
  induction entries generalizing start with
  | nil => cases h
  | cons entry rest ih =>
      rw [images_cons, List.length_append]
      rcases List.mem_cons.mp h with rfl | h
      · have hvalues := length_values_le entry
        have himage := length_image entry
        rw [offset_symbolAt, length_symbolAt]
        constructor <;> omega
      · obtain ⟨hfirst, hlast⟩ := ih h
        constructor <;> omega

/-- The cells of one symbol end before those of the next start. -/
theorem pairwise_symbols (start : Nat) (entries : List Entry) :
    (symbols start entries).Pairwise fun earlier later =>
      earlier.offset + earlier.length ≤ later.offset := by
  induction entries generalizing start with
  | nil => exact .nil
  | cons entry rest ih =>
      refine .cons (fun later hlater => ?_) (ih _)
      have hlater := (bounds_of_mem_symbols hlater).1
      have hvalues := length_values_le entry
      have himage := length_image entry
      rw [offset_symbolAt, length_symbolAt]
      omega

/-- The first symbol of a name is that of the first entry of the name, which stands behind the
cells of the entries before it. -/
theorem find?_symbols (start : Nat) (entries : List Entry) (name : String) :
    (symbols start entries).find? (·.name = name) = none ∧ named? entries name = none ∨
      ∃ before entry after, entries = before ++ entry :: after ∧
        named? entries name = some entry ∧
        (symbols start entries).find? (·.name = name) =
          some (entry.symbolAt (start + (images before).length)) := by
  induction entries generalizing start with
  | nil => exact .inl ⟨rfl, rfl⟩
  | cons entry rest ih =>
      rw [symbols, named?, List.find?_cons, List.find?_cons, name_symbolAt]
      by_cases hname : entry.name = name
      · simp only [hname, decide_true]
        exact .inr ⟨[], entry, rest, rfl, rfl, rfl⟩
      · simp only [hname, decide_false]
        rcases ih (start + entry.image.length) with hnone | ⟨before, found, after, rfl, hfound, hat⟩
        · exact .inl hnone
        · refine .inr ⟨entry :: before, found, after, rfl, hfound, ?_⟩
          rw [hat, images_cons, List.length_append, Nat.add_assoc]

/-- An operand without a meaning is a numeral out of range or a name that no entry has. -/
theorem denote_eq_error {entries : List Entry} {token : String} {fault : Fault}
    (h : denote entries token = .error fault) :
    fault = .invalidLiteral token ∨ fault = .pointerNotFound token := by
  have hnumeral (base : Nat) (digits : String) (h : numeral token base digits = .error fault) :
      fault = .invalidLiteral token := by
    unfold numeral at h
    split at h
    · cases h
    · exact (Except.error.inj h).symm
  unfold denote at h
  split at h
  · exact .inl (hnumeral 16 _ h)
  · exact .inl (hnumeral 10 _ h)
  · split at h
    · cases h
    · exact .inr (Except.error.inj h).symm

/-- The first entry of a name among earlier entries is the first among all. -/
theorem named?_append_of_eq_some {earlier : List Entry} {name : String} {entry : Entry}
    (h : named? earlier name = some entry) (later : List Entry) :
    named? (earlier ++ later) name = some entry := by
  rw [named?, List.find?_append, ← named?, h]
  rfl

/-- A name that some entry has is found. -/
theorem exists_named? {entries : List Entry} {name : String} (h : name ∈ entries.map Entry.name) :
    ∃ entry, named? entries name = some entry := by
  obtain ⟨entry, hentry, hname⟩ := List.mem_map.mp h
  exact Option.isSome_iff_exists.mp (List.find?_isSome.mpr ⟨entry, hentry, by simpa using hname⟩)

/-- Declarations that stand behind others make their entries behind those of the others. -/
theorem extend?_append {earlier middle : List Entry} {first : List Declaration}
    (h : extend? earlier first = some middle) (second : List Declaration) :
    extend? earlier (first ++ second) = extend? middle second := by
  induction first generalizing earlier with
  | nil =>
      obtain rfl := Option.some.inj h
      rfl
  | cons declaration rest ih =>
      obtain ⟨entry, hentry, hrest⟩ := Option.bind_eq_some_iff.mp h
      rw [List.cons_append, extend?, hentry]
      exact ih hrest

/-- Entries stay in front of those that declarations make behind them. -/
theorem prefix_of_extend? {entries final : List Entry} {declarations : List Declaration}
    (h : extend? entries declarations = some final) : entries <+: final := by
  induction declarations generalizing entries with
  | nil =>
      obtain rfl := Option.some.inj h
      exact List.prefix_rfl
  | cons declaration rest ih =>
      obtain ⟨entry, _, hrest⟩ := Option.bind_eq_some_iff.mp h
      exact (List.prefix_append entries [entry]).trans (ih hrest)

/-- The first declaration of a name makes the first entry of that name, behind entries that stay. -/
theorem exists_named?_of_find? {entries final : List Entry} {declarations : List Declaration}
    {declaration : Declaration} {name : String} (h : extend? entries declarations = some final)
    (hfresh : named? entries name = none)
    (hfirst : declarations.find? (·.name = name) = some declaration) :
    ∃ before entry, before <+: final ∧ declaration.measured? before = some entry ∧
      named? final name = some entry := by
  induction declarations generalizing entries with
  | nil => cases hfirst
  | cons first rest ih =>
      obtain ⟨entry, hentry, hrest⟩ := Option.bind_eq_some_iff.mp h
      have hname := Declaration.name_of_measured? hentry
      have hnamed : named? (entries ++ [entry]) name =
          if first.name = name then some entry else none := by
        rw [named?, List.find?_append, ← named?, hfresh, List.find?_singleton, hname]
        simp
      by_cases hsame : first.name = name
      · -- Entries that come later do not hide the one that is made here.
        rw [List.find?_cons_of_pos (by simpa using hsame)] at hfirst
        obtain rfl := Option.some.inj hfirst
        rw [if_pos hsame] at hnamed
        obtain ⟨later, rfl⟩ := prefix_of_extend? hrest
        exact ⟨entries, entry, ⟨[entry] ++ later, by simp⟩, hentry,
          named?_append_of_eq_some hnamed later⟩
      · rw [List.find?_cons_of_neg (by simpa using hsame)] at hfirst
        rw [if_neg hsame] at hnamed
        exact ih hrest hnamed hfirst

end Entry

end ChannelAsm
