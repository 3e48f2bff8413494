import Mathlib.Data.List.Basic

/-! Decimal numerals padded with leading zeros, as they occur in file names.
Padding never merges two numbers, whatever the width. -/
namespace DecimalNames

/-- The numeral of `n`, padded on the left to at least `width` characters. -/
def zeroPad (width n : ℕ) : String := String.ofList ((Nat.toDigits 10 n).leftpad width '0')

theorem ofDigitChars_leftpad (width n : ℕ) :
    Nat.ofDigitChars 10 ((Nat.toDigits 10 n).leftpad width '0') 0 = n := by
  rw [List.leftpad, Nat.ofDigitChars_append, Nat.ofDigitChars_replicate_zero, Nat.mul_zero,
    Nat.ofDigitChars_ten_toDigits]

theorem zeroPad_injective (width : ℕ) : Function.Injective (zeroPad width) := by
  intro m n h
  have hl := congrArg String.toList h
  simp only [zeroPad, String.toList_ofList] at hl
  rw [← ofDigitChars_leftpad width m, hl, ofDigitChars_leftpad]

theorem zeroPad_digits {width n : ℕ} {c : Char} (h : c ∈ (zeroPad width n).toList) :
    c.isDigit = true := by
  rw [zeroPad, String.toList_ofList, List.leftpad, List.mem_append, List.mem_replicate] at h
  rcases h with ⟨-, rfl⟩ | h
  · rfl
  · exact Nat.isDigit_of_mem_toDigits (by decide) (by decide) h

theorem not_mem_zeroPad {width n : ℕ} {c : Char} (hc : c.isDigit = false) :
    c ∉ (zeroPad width n).toList := by
  intro h
  rw [zeroPad_digits h] at hc
  cases hc

example : zeroPad 6 42 = "000042" := by decide

end DecimalNames
