import ChannelAsm.Proofs.Text.Numeral
import Mathlib.Data.List.Forall2
import Mathlib.Data.Nat.Digits.Defs

/-!
# Written integers

`Text.Writes` is the grammar of numerals: at most one sign, and a row of digits that are worth what
their places say. By `integer?_eq_some_iff` a text is read as an integer exactly when it writes that
integer, and by `int32?_eq_some_iff` as a 32-bit integer exactly when the integer is one.
-/

namespace ChannelAsm.Text

variable {base digit value : Nat} {c : Char} {text : List Char}

/-! ## The grammar -/

/-- The character stands for the digit of the base. The letters from `a` on stand for the digits
from ten on, in either case. -/
def IsDigit (base : Nat) (c : Char) (digit : Nat) : Prop :=
  digit < base ∧ (c = digit.digitChar ∨ c = digit.digitChar.toUpper)

/-- The text is a row of digits with the value, the most significant digit first. -/
structure WritesNatural (base : Nat) (text : List Char) (value : Nat) : Prop where
  ne_nil : text ≠ []
  exists_digits : ∃ digits, List.Forall₂ (IsDigit base) text digits ∧
    value = Nat.ofDigits base digits.reverse

/-- The text is a row of digits behind at most one sign, with the value. -/
inductive Writes (base : Nat) : List Char → Int → Prop where
  | unsigned {text : List Char} {value : Nat} :
      WritesNatural base text value → Writes base text value
  | plus {text : List Char} {value : Nat} :
      WritesNatural base text value → Writes base ('+' :: text) value
  | minus {text : List Char} {value : Nat} :
      WritesNatural base text value → Writes base ('-' :: text) (-value)

/-! ## Digits -/

/-- A character is read as the digit that it stands for. -/
theorem digitValue?_eq_some_iff (h : digit < 16) :
    digitValue? c = some digit ↔ c = digit.digitChar ∨ c = digit.digitChar.toUpper := by
  constructor
  · -- The characters of each range follow one another as their digits do.
    have hranges : ∀ digit < 16,
        (digit < 10 → Char.ofNat (digit + 48) = digit.digitChar) ∧
        (10 ≤ digit → Char.ofNat (digit - 10 + 97) = digit.digitChar ∧
          Char.ofNat (digit - 10 + 65) = digit.digitChar.toUpper) := by
      decide
    have hbounds (low high : Char) (hrange : low ≤ c ∧ c ≤ high) :
        low.toNat ≤ c.toNat ∧ c.toNat ≤ high.toNat :=
      hrange
    have hshift (shift : Nat) (hle : shift ≤ c.toNat) :
        Char.ofNat (c.toNat - shift + shift) = c := by
      rw [Nat.sub_add_cancel hle, Char.ofNat_toNat]
    obtain ⟨hdecimal, hletter⟩ := hranges digit h
    intro hvalue
    unfold digitValue? at hvalue
    split at hvalue
    · rename_i hrange
      obtain ⟨hlow, hhigh⟩ : 48 ≤ c.toNat ∧ c.toNat ≤ 57 := hbounds '0' '9' hrange
      have hdigit : c.toNat - 48 = digit := Option.some.inj hvalue
      left
      rw [← hdecimal (by omega), ← hdigit, hshift 48 hlow]
    · split at hvalue
      · rename_i hrange
        obtain ⟨hlow, -⟩ : 97 ≤ c.toNat ∧ c.toNat ≤ 122 := hbounds 'a' 'z' hrange
        have hdigit : c.toNat - 97 + 10 = digit := Option.some.inj hvalue
        left
        rw [← (hletter (by omega)).1, ← hdigit, Nat.add_sub_cancel, hshift 97 hlow]
      · split at hvalue
        · rename_i hrange
          obtain ⟨hlow, -⟩ : 65 ≤ c.toNat ∧ c.toNat ≤ 90 := hbounds 'A' 'Z' hrange
          have hdigit : c.toNat - 65 + 10 = digit := Option.some.inj hvalue
          right
          rw [← (hletter (by omega)).2, ← hdigit, Nat.add_sub_cancel, hshift 65 hlow]
        · cases hvalue
  · have hchars : ∀ digit < 16, digitValue? digit.digitChar = some digit ∧
        digitValue? digit.digitChar.toUpper = some digit := by
      decide
    rintro (rfl | rfl)
    · exact (hchars digit h).1
    · exact (hchars digit h).2

/-- A character is a digit of a base up to sixteen exactly when it stands for one. -/
theorem digit?_eq_some_iff (hbase : base ≤ 16) :
    digit? base c = some digit ↔ IsDigit base c digit := by
  rw [digit?, Option.filter_eq_some_iff, decide_eq_true_eq, and_comm]
  exact and_congr_right fun hdigit => digitValue?_eq_some_iff (Nat.lt_of_lt_of_le hdigit hbase)

/-! ## Natural numbers -/

/-- A traversal gives results exactly when every item gives its own. -/
theorem mapM_eq_some_iff {α β : Type} {f : α → Option β} {items : List α} {results : List β} :
    items.mapM f = some results ↔
      List.Forall₂ (fun item result => f item = some result) items results := by
  induction items generalizing results with
  | nil => simp [eq_comm]
  | cons item items ih =>
      simp only [List.mapM_cons, Option.bind_eq_bind, Option.bind_eq_some_iff, Option.pure_def,
        Option.some.injEq, List.forall₂_cons_left_iff, ih]
      refine exists_congr fun result => ⟨?_, ?_⟩
      · rintro ⟨hitem, rest, hrest, hresults⟩
        exact ⟨rest, hitem, hrest, hresults.symm⟩
      · rintro ⟨rest, hitem, hrest, hresults⟩
        exact ⟨hitem, rest, hrest, hresults.symm⟩

/-- Reading digits one after the other gives what their places say. -/
theorem foldl_eq_ofDigits (base : Nat) (digits : List Nat) :
    digits.foldl (fun value digit => value * base + digit) 0 =
      Nat.ofDigits base digits.reverse := by
  rw [Nat.ofDigits_eq_foldr, List.foldr_reverse]
  congr
  funext value digit
  rw [Nat.cast_id, Nat.mul_comm, Nat.add_comm]

/-- A text is read as a natural number exactly when it is a row of digits with that value. -/
theorem natural?_eq_some_iff (hbase : base ≤ 16) :
    natural? base text = some value ↔ WritesNatural base text value := by
  have hdigits (digits : List Nat) :
      text.mapM (digit? base) = some digits ↔ List.Forall₂ (IsDigit base) text digits := by
    rw [mapM_eq_some_iff]
    simp only [digit?_eq_some_iff hbase]
  have hread (hne : text ≠ []) : natural? base text = (text.mapM (digit? base)).map
      (·.foldl (fun value digit => value * base + digit) 0) := by
    cases text with
    | nil => exact absurd rfl hne
    | cons first rest => rfl
  constructor
  · intro h
    have hne : text ≠ [] := by
      rintro rfl
      cases h
    rw [hread hne] at h
    obtain ⟨digits, hmap, rfl⟩ := Option.map_eq_some_iff.mp h
    exact ⟨hne, digits, (hdigits digits).mp hmap, foldl_eq_ofDigits base digits⟩
  · rintro ⟨hne, digits, hmap, rfl⟩
    rw [hread hne, (hdigits digits).mpr hmap, Option.map_some, foldl_eq_ofDigits]

/-! ## Integers -/

/-- A text is read as an integer exactly when it writes that integer. -/
theorem integer?_eq_some_iff (hbase : base ≤ 16) {value : Int} :
    integer? base text = some value ↔ Writes base text value := by
  constructor
  · intro h
    unfold integer? at h
    split at h
    · obtain ⟨_, hsigned, rfl⟩ := Option.map_eq_some_iff.mp h
      obtain ⟨natural, hnatural, hvalue⟩ := Option.bind_eq_some_iff.mp hsigned
      rw [← Option.some.inj hvalue]
      exact .minus ((natural?_eq_some_iff hbase).mp hnatural)
    · obtain ⟨natural, hnatural, rfl⟩ := Option.map_eq_some_iff.mp h
      exact .plus ((natural?_eq_some_iff hbase).mp hnatural)
    · obtain ⟨natural, hnatural, rfl⟩ := Option.map_eq_some_iff.mp h
      exact .unsigned ((natural?_eq_some_iff hbase).mp hnatural)
  · intro h
    cases h with
    | unsigned hnatural => exact integer?_of_natural? ((natural?_eq_some_iff hbase).mpr hnatural)
    | plus hnatural => rw [integer?, (natural?_eq_some_iff hbase).mpr hnatural]; rfl
    | minus hnatural => rw [integer?, (natural?_eq_some_iff hbase).mpr hnatural]; rfl

/-- A text is read as a 32-bit integer exactly when it writes that integer. -/
theorem int32?_eq_some_iff (hbase : base ≤ 16) {value : Int32} :
    int32? base text = some value ↔
      ∃ written, Writes base text written ∧ Fits32 written ∧ value.toInt = written := by
  rw [int32?, Option.map_eq_some_iff]
  refine exists_congr fun written => ?_
  rw [Option.filter_eq_some_iff, decide_eq_true_eq, integer?_eq_some_iff hbase, and_assoc]
  refine and_congr_right fun _ => and_congr_right fun hfits => ?_
  have hwritten : (Int32.ofInt written).toInt = written :=
    Int32.toInt_ofInt_of_le hfits.1 hfits.2
  rw [← Int32.toInt_inj, hwritten, eq_comm]

end ChannelAsm.Text
