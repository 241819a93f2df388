import ChannelAsm.Text.Blank
import ChannelAsm.Text.Numeral
import Mathlib.Data.Int.Basic

/-!
# Spelled numbers

Numbers are spelled with the digits that `Nat.toDigits` gives, behind a minus sign when they are
negative. `Text.integer?_signedDigits` says that such a numeral is read as the number that it
spells, and `Text.int32?_signedDigits` that no cell is too small or too large for that.
-/

namespace ChannelAsm.Text

variable {base digit value : Nat} {c : Char} {text : List Char}

/-! ## Digits -/

/-- A digit of a base up to sixteen is read as what it stands for. -/
theorem digit?_digitChar (hbase : base ≤ 16) (h : digit < base) :
    digit? base digit.digitChar = some digit := by
  have hvalues : ∀ digit : Fin 16, digitValue? (digit : Nat).digitChar = some (digit : Nat) := by
    decide
  have hvalue : digitValue? digit.digitChar = some digit :=
    hvalues ⟨digit, Nat.lt_of_lt_of_le h hbase⟩
  rw [digit?, hvalue, Option.filter_some, if_pos (decide_eq_true h)]

/-- A character that stands for a digit is not blank. -/
theorem isBlank_of_digit? (h : digit? base c = some digit) : isBlank c = false := by
  obtain ⟨hvalue, -⟩ := Option.filter_eq_some_iff.mp h
  have hrange : 48 ≤ c.toNat ∧ c.toNat ≤ 122 := by
    have hcases : '0' ≤ c ∧ c ≤ '9' ∨ 'a' ≤ c ∧ c ≤ 'z' ∨ 'A' ≤ c ∧ c ≤ 'Z' := by
      by_contra hnone
      simp only [not_or] at hnone
      rw [digitValue?, if_neg hnone.1, if_neg hnone.2.1, if_neg hnone.2.2] at hvalue
      cases hvalue
    have hle (low high : Char) (hbounds : low ≤ c ∧ c ≤ high) :
        low.toNat ≤ c.toNat ∧ c.toNat ≤ high.toNat :=
      hbounds
    rcases hcases with hbounds | hbounds | hbounds
    · obtain ⟨hlow, hhigh⟩ : 48 ≤ c.toNat ∧ c.toNat ≤ 57 := hle '0' '9' hbounds
      omega
    · obtain ⟨hlow, hhigh⟩ : 97 ≤ c.toNat ∧ c.toNat ≤ 122 := hle 'a' 'z' hbounds
      omega
    · obtain ⟨hlow, hhigh⟩ : 65 ≤ c.toNat ∧ c.toNat ≤ 90 := hle 'A' 'Z' hbounds
      omega
  simp only [isBlank, blankRanges, List.any_cons, List.any_nil, Bool.or_false, Bool.or_eq_false_iff,
    Bool.and_eq_false_iff, decide_eq_false_iff_not]
  omega

/-- The characters of a spelled number are digits of the base. -/
theorem exists_of_mem_toDigits (hone : 1 < base) (h : c ∈ Nat.toDigits base value) :
    ∃ digit < base, c = digit.digitChar := by
  induction value using Nat.strongRecOn with
  | ind value ih =>
      rcases Nat.lt_or_ge value base with hlt | hge
      · rw [Nat.toDigits_of_lt_base hlt] at h
        exact ⟨value, hlt, List.mem_singleton.mp h⟩
      · rw [Nat.toDigits_of_base_le hone hge] at h
        rcases List.mem_append.mp h with h | h
        · exact ih (value / base) (Nat.div_lt_self (by omega) hone) h
        · exact ⟨value % base, Nat.mod_lt value (by omega), List.mem_singleton.mp h⟩

/-! ## Natural numbers -/

/-- What starts with no digit is no number. -/
theorem natural?_cons_of_none (h : digit? base c = none) (rest : List Char) :
    natural? base (c :: rest) = none := by
  rw [natural?, List.mapM_cons, h]
  · rfl
  · exact List.cons_ne_nil c rest

/-- One more digit behind a number makes one that is longer by a place. -/
theorem natural?_concat (h : natural? base text = some value)
    (hdigit : digit? base c = some digit) :
    natural? base (text ++ [c]) = some (value * base + digit) := by
  cases text with
  | nil => cases h
  | cons first rest =>
      obtain ⟨digits, hdigits, rfl⟩ := Option.map_eq_some_iff.mp h
      show ((first :: rest ++ [c]).mapM (digit? base)).map _ = _
      rw [List.mapM_append, hdigits, List.mapM_cons, hdigit, List.mapM_nil]
      exact congrArg some (List.foldl_append ..)

/-- The digits of a number are read as the number. -/
theorem natural?_toDigits (hone : 1 < base) (hbase : base ≤ 16) (value : Nat) :
    natural? base (Nat.toDigits base value) = some value := by
  induction value using Nat.strongRecOn with
  | ind value ih =>
      rcases Nat.lt_or_ge value base with hlt | hge
      · rw [Nat.toDigits_of_lt_base hlt]
        simp [natural?, digit?_digitChar hbase hlt]
      · have hless : value / base < value := Nat.div_lt_self (by omega) hone
        have hdigit := digit?_digitChar hbase (Nat.mod_lt value (by omega))
        rw [Nat.toDigits_of_base_le hone hge, natural?_concat (ih _ hless) hdigit,
          Nat.div_add_mod']

/-! ## Integers -/

/-- The digits of an integer, behind a minus sign when it is negative. -/
def signedDigits (base : Nat) (value : Int) : List Char :=
  if value < 0 then '-' :: Nat.toDigits base value.natAbs else Nat.toDigits base value.natAbs

/-- A number without a sign is read as an integer. -/
theorem integer?_of_natural? (h : natural? base text = some value) :
    integer? base text = some (value : Int) := by
  unfold integer?
  split
  · rw [natural?_cons_of_none (by rfl)] at h
    cases h
  · rw [natural?_cons_of_none (by rfl)] at h
    cases h
  · rw [h]
    rfl

/-- The digits of an integer are read as the integer. -/
theorem integer?_signedDigits (hone : 1 < base) (hbase : base ≤ 16) (value : Int) :
    integer? base (signedDigits base value) = some value := by
  have hdigits := natural?_toDigits hone hbase value.natAbs
  unfold signedDigits
  split
  · rw [integer?, hdigits]
    show some (-(value.natAbs : Int)) = some value
    rw [Option.some.injEq]
    omega
  · rw [integer?_of_natural? hdigits, Option.some.injEq]
    omega

/-- The digits of a cell are read as the cell. -/
theorem int32?_signedDigits (hone : 1 < base) (hbase : base ≤ 16) (value : Int32) :
    int32? base (signedDigits base value.toInt) = some value := by
  have hfits : Fits32 value.toInt := ⟨value.le_toInt, value.toInt_lt⟩
  rw [int32?, integer?_signedDigits hone hbase, Option.filter_some, if_pos (decide_eq_true hfits),
    Option.map_some, Int32.ofInt_toInt]

/-- A spelled integer holds no blanks. -/
theorem isBlank_of_mem_signedDigits (hone : 1 < base) (hbase : base ≤ 16) {value : Int}
    (h : c ∈ signedDigits base value) : isBlank c = false := by
  have hdigits (hmem : c ∈ Nat.toDigits base value.natAbs) : isBlank c = false := by
    obtain ⟨digit, hdigit, rfl⟩ := exists_of_mem_toDigits hone hmem
    exact isBlank_of_digit? (digit?_digitChar hbase hdigit)
  unfold signedDigits at h
  split at h
  · rcases List.mem_cons.mp h with rfl | h
    · decide
    · exact hdigits h
  · exact hdigits h

end ChannelAsm.Text
