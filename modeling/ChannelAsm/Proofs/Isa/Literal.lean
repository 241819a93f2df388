import ChannelAsm.Proofs.Program.Meaning
import ChannelAsm.Proofs.Text.Integer

/-!
# What literals and operands stand for

`Literal.Writes` is the grammar of literals. By `literalValue_eq_ok_iff` a word has a value as a
literal exactly when the integer that it writes is a 32-bit one, and that is the value. A word that
is numeric as an operand has the same value there, or the same fault: `Operand.value?_eq_literal`.
So it makes no difference to a number whether it stands in an instruction or in a `db` line, which
`literal_reading` spells out.
-/

namespace ChannelAsm

namespace Literal

/-- The word starts with `0x`. -/
def IsMarked (word : String) : Prop :=
  "0x".toList <+: word.toList

/-- The word is a literal and writes the integer: in base sixteen behind `0x`, and in base ten
otherwise. -/
inductive Writes : String → Int → Prop where
  | hexadecimal {digits : String} {value : Int} :
      Text.Writes 16 digits.toList value → Writes ("0x" ++ digits) value
  | decimal {word : String} {value : Int} :
      ¬ IsMarked word → Text.Writes 10 word.toList value → Writes word value

variable {word digits : String} {written : Int}

/-- The characters of a word that starts with `0x`. -/
theorem toList_append_digits (digits : String) :
    ("0x" ++ digits).toList = '0' :: 'x' :: digits.toList :=
  String.toList_append

/-- A word that starts with `0x` is that and the rest. -/
theorem isMarked_iff : IsMarked word ↔ ∃ digits, word = "0x" ++ digits := by
  constructor
  · rintro ⟨rest, hrest⟩
    refine ⟨String.ofList rest, String.toList_inj.mp ?_⟩
    rw [toList_append_digits, String.toList_ofList, ← hrest]
    rfl
  · rintro ⟨digits, rfl⟩
    exact ⟨digits.toList, (toList_append_digits digits).symm⟩

/-- The characters of a word that does not start with `0x`. -/
theorem ne_of_not_isMarked (h : ¬ IsMarked word) (rest : List Char) :
    word.toList ≠ '0' :: 'x' :: rest :=
  fun hrest => h ⟨rest, hrest.symm⟩

/-- Behind `0x` a literal is hexadecimal. -/
theorem writes_append_iff :
    Writes ("0x" ++ digits) written ↔ Text.Writes 16 digits.toList written := by
  refine ⟨fun h => ?_, .hexadecimal⟩
  generalize hword : "0x" ++ digits = word at h
  cases h with
  | @hexadecimal others _ h =>
      rw [← String.toList_inj, String.toList_append, String.toList_append] at hword
      rwa [List.append_cancel_left hword]
  | decimal hunmarked _ => exact absurd (isMarked_iff.mpr ⟨digits, hword.symm⟩) hunmarked

/-- Without `0x` a literal is decimal. -/
theorem writes_iff_of_not_isMarked (h : ¬ IsMarked word) :
    Writes word written ↔ Text.Writes 10 word.toList written := by
  refine ⟨fun hwrites => ?_, .decimal h⟩
  cases hwrites with
  | hexadecimal => exact absurd (isMarked_iff.mpr ⟨_, rfl⟩) h
  | decimal _ hwrites => exact hwrites

end Literal

open Literal (IsMarked)

variable {word digits : String} {value : Int32}

/-! ## Literals -/

/-- A literal is read from what follows `0x` in base sixteen. -/
theorem literalValue_append (digits : String) :
    literalValue ("0x" ++ digits) =
      (Text.int32? 16 digits.toList).elim (.error (.invalidLiteral ("0x" ++ digits))) .ok := by
  simp only [literalValue, Literal.toList_append_digits]
  cases Text.int32? 16 digits.toList <;> rfl

/-- A word without `0x` is read in base ten. -/
theorem literalValue_of_not_isMarked (h : ¬ IsMarked word) :
    literalValue word =
      (Text.int32? 10 word.toList).elim (.error (.invalidLiteral word)) .ok := by
  have hword := Literal.ne_of_not_isMarked h
  simp only [literalValue]
  cases Text.int32? 10 word.toList <;> rfl

/-- A word has a value as a literal exactly when the integer that it writes is a 32-bit one. -/
theorem literalValue_eq_ok_iff : literalValue word = .ok value ↔
    ∃ written, Literal.Writes word written ∧ Text.Fits32 written ∧ value.toInt = written := by
  by_cases hmarked : IsMarked word
  · obtain ⟨digits, rfl⟩ := Literal.isMarked_iff.mp hmarked
    simp only [Literal.writes_append_iff]
    rw [← Text.int32?_eq_some_iff (by omega), literalValue_append]
    cases Text.int32? 16 digits.toList <;> simp
  · simp only [Literal.writes_iff_of_not_isMarked hmarked]
    rw [← Text.int32?_eq_some_iff (by omega), literalValue_of_not_isMarked hmarked]
    cases Text.int32? 10 word.toList <;> simp

/-- A word is a literal exactly when it writes a 32-bit integer. -/
theorem isLiteral_iff :
    IsLiteral word ↔ ∃ written, Literal.Writes word written ∧ Text.Fits32 written := by
  constructor
  · rintro ⟨value, hvalue⟩
    obtain ⟨written, hwrites, hfits, -⟩ := literalValue_eq_ok_iff.mp hvalue
    exact ⟨written, hwrites, hfits⟩
  · rintro ⟨written, hwrites, hfits⟩
    exact ⟨Int32.ofInt written, literalValue_eq_ok_iff.mpr
      ⟨written, hwrites, hfits, Int32.toInt_ofInt_of_le hfits.1 hfits.2⟩⟩

/-! ## Operands -/

namespace Operand

/-- The word is a number as an operand: it starts with `0x`, or is a row of decimal digits. -/
def IsNumber (word : String) : Prop :=
  IsMarked word ∨ word ≠ "" ∧ ∀ c ∈ word.toList, '0' ≤ c ∧ c ≤ '9'

/-- The decimal digits are the characters from `0` to `9`. -/
theorem isDigit_iff {c : Char} : c.isDigit = true ↔ '0' ≤ c ∧ c ≤ '9' := by
  rw [Char.isDigit, Bool.and_eq_true, decide_eq_true_eq, decide_eq_true_eq]
  rfl

/-- Behind `0x` an operand is hexadecimal. -/
theorem ofToken_append (digits : String) : ofToken ("0x" ++ digits) = .hexadecimal digits := by
  rw [ofToken, Literal.toList_append_digits]
  exact congrArg hexadecimal String.ofList_toList

/-- Without `0x` an operand is decimal when it is a row of digits, and a symbol otherwise. -/
theorem ofToken_of_not_isMarked (h : ¬ IsMarked word) :
    ofToken word = if word.toList ≠ [] ∧ word.toList.all Char.isDigit then .decimal word
      else .symbol word := by
  have hword := Literal.ne_of_not_isMarked h
  simp only [ofToken]

/-- A number has the value that it has as a literal, or the same fault. -/
theorem value?_eq_literal (h : IsNumber word) :
    (ofToken word).value? = some (literalValue word) := by
  by_cases hmarked : IsMarked word
  · obtain ⟨digits, rfl⟩ := Literal.isMarked_iff.mp hmarked
    rw [ofToken_append, literalValue_append, value?]
    cases Text.int32? 16 digits.toList <;> rfl
  · obtain ⟨hne, hdigits⟩ := h.resolve_left hmarked
    have hrow : word.toList ≠ [] ∧ word.toList.all Char.isDigit := by
      refine ⟨fun hnil => hne (String.toList_inj.mp hnil), List.all_eq_true.mpr fun c hc => ?_⟩
      exact isDigit_iff.mpr (hdigits c hc)
    rw [ofToken_of_not_isMarked hmarked, if_pos hrow, literalValue_of_not_isMarked hmarked, value?]
    cases Text.int32? 10 word.toList <;> rfl

/-- A word that is no number has no value of its own. -/
theorem value?_eq_none (h : ¬ IsNumber word) : (ofToken word).value? = none := by
  obtain ⟨hmarked, hrow⟩ := not_or.mp h
  rw [ofToken_of_not_isMarked hmarked, if_neg, value?]
  rintro ⟨hne, hdigits⟩
  refine hrow ⟨fun hempty => hne (congrArg String.toList hempty), fun c hc => ?_⟩
  exact isDigit_iff.mp (List.all_eq_true.mp hdigits c hc)

/-- A word has no value of its own exactly when it does not start with `0x`, and is empty or holds a
character that is no decimal digit. -/
theorem value?_eq_none_iff : (ofToken word).value? = none ↔
    ¬ IsMarked word ∧ (word = "" ∨ ∃ c ∈ word.toList, ¬ ('0' ≤ c ∧ c ≤ '9')) := by
  have hnumber : (ofToken word).value? = none ↔ ¬ IsNumber word := by
    refine ⟨fun hnone h => ?_, value?_eq_none⟩
    rw [value?_eq_literal h] at hnone
    cases hnone
  rw [hnumber, IsNumber]
  simp only [not_and, not_forall, exists_prop, ne_eq, or_iff_not_imp_left]

end Operand

/-- What a word stands for. As a literal it has the value that it writes, if that is a 32-bit
integer; any other word is an invalid literal. As an operand it is no number when it does not start
with `0x`, and is empty or holds a character that is no decimal digit; any other word stands for the
same in an instruction as in a `db` line. -/
theorem literal_reading (word : String) :
    (∀ value, literalValue word = .ok value ↔ ∃ written, Literal.Writes word written ∧
      -2 ^ 31 ≤ written ∧ written ≤ 2 ^ 31 - 1 ∧ value.toInt = written) ∧
    (∀ fault, literalValue word = .error fault ↔ fault = .invalidLiteral word ∧
      ∀ written, Literal.Writes word written → ¬ (-2 ^ 31 ≤ written ∧ written ≤ 2 ^ 31 - 1)) ∧
    ((Operand.ofToken word).value? = none ↔
      ¬ "0x".toList <+: word.toList ∧ (word = "" ∨ ∃ c ∈ word.toList, ¬ ('0' ≤ c ∧ c ≤ '9'))) ∧
    ∀ result, (Operand.ofToken word).value? = some result → result = literalValue word ∧
      (∀ program : Program, program.values word = result.map ([·])) ∧
      ∀ name, Declaration.ofWords [name, "db", word] =
        result.map fun value => .block name [value] := by
  have hfits (written : Int) :
      Text.Fits32 written ↔ -2 ^ 31 ≤ written ∧ written ≤ 2 ^ 31 - 1 := by
    unfold Text.Fits32
    omega
  refine ⟨fun value => ?_, fun fault => ?_, Operand.value?_eq_none_iff, fun result hresult => ?_⟩
  · rw [literalValue_eq_ok_iff]
    simp only [hfits, and_assoc]
  · rw [literalValue_eq_error_iff, isLiteral_iff, and_comm]
    simp only [hfits, not_exists, not_and]
  · have hliteral : result = literalValue word := by
      by_cases hnumber : Operand.IsNumber word
      · rw [Operand.value?_eq_literal hnumber] at hresult
        exact (Option.some.inj hresult).symm
      · rw [Operand.value?_eq_none hnumber] at hresult
        cases hresult
    refine ⟨hliteral, fun program => ?_, fun name => ?_⟩
    · rw [Program.values, hresult]
    · rw [Declaration.ofWords_db, hliteral, List.mapM_cons, List.mapM_nil]
      cases literalValue word <;> rfl

/-- The sign stands behind `0x`, and one less than the least cell is no literal. -/
example : literalValue "0x-80000000" = .ok (-2147483648) ∧
    literalValue "-2147483649" = .error (.invalidLiteral "-2147483649") := by
  decide +kernel

end ChannelAsm
