import Folio.Number.Integer
import Folio.Number.Power
import Mathlib.Data.List.Basic

/-!
# Numbers in decimal digits

A number that is written in decimal digits is read back from them, unless they are more than an
integer may be written with. The digits are not blanks, so that a number ends where blanks start.
-/

namespace Folio

namespace Text

/-- The value of a digit is its distance from zero. -/
theorem digitValue?_of_isDigit {c : Char} (h : c.isDigit = true) :
    digitValue? c = some (c.toNat - '0'.toNat) := by
  have hzero : (0x30 ≤ c.toNat && c.toNat < 0x30 + 10) = true := by
    simpa [Char.isDigit, UInt32.le_iff_toNat_le, Nat.lt_succ_iff] using h
  have hfind : zeros.find? (fun z => z ≤ c.toNat && c.toNat < z + 10) = some 0x30 :=
    List.find?_cons_of_pos hzero
  rw [digitValue?, hfind]
  rfl

/-- An ASCII digit is a decimal one. -/
theorem isDecimal_of_isDigit {c : Char} (h : c.isDigit = true) : isDecimal c = true := by
  rw [isDecimal, digitValue?_of_isDigit h]
  rfl

/-- No blank is a digit. -/
theorem isDecimal_eq_false_of_isBlank {c : Char} (h : isBlank c = true) : isDecimal c = false := by
  have hapart : ∀ r ∈ blankRanges, ∀ n ∈ List.range' r.1 (r.2 + 1 - r.1),
      zeros.find? (fun z => z ≤ n && n < z + 10) = none := by decide +kernel
  obtain ⟨r, hr, hlow, hhigh⟩ := exists_of_covers h
  rw [isDecimal, digitValue?, hapart r hr c.toNat (List.mem_range'_1.mpr ⟨hlow, by omega⟩)]
  rfl

/-- A number is written in ASCII digits. -/
theorem isDigit_of_mem_toString {n : Nat} {c : Char} (h : c ∈ (toString n).toList) :
    c.isDigit = true := by
  rw [Nat.toString_eq_ofList_toDigits, String.toList_ofList] at h
  exact Nat.isDigit_of_mem_toDigits (by decide) (by decide) h

theorem toList_toString_ne_nil (n : Nat) : (toString n).toList ≠ [] := by
  rw [Nat.toString_eq_ofList_toDigits, String.toList_ofList]
  exact Nat.toDigits_ne_nil

/-- The digits of a number have its value. -/
theorem digitsValue_toString (n : Nat) : digitsValue (toString n).toList = n := by
  have hdigits : digitsValue (toString n).toList = Nat.ofDigitChars 10 (toString n).toList 0 := by
    refine List.foldl_ext _ _ 0 fun value c hc => ?_
    rw [digitValue?_of_isDigit (isDigit_of_mem_toString hc), Option.getD_some]
  rw [hdigits, Nat.toString_eq_ofList_toDigits, String.toList_ofList,
    Nat.ofDigitChars_ten_toDigits]

end Text

namespace Number

open Text

/-- A number has so many digits at most if it is below the power of ten. -/
theorem length_toString_le_iff (n : Nat) {most : Nat} (h : 0 < most) :
    (toString n).toList.length ≤ most ↔ n < pow10 most := by
  rw [Nat.toString_eq_ofList_toDigits, String.toList_ofList]
  exact Nat.length_toDigits_le_iff (by decide) h

/-- A number is read back unless it has too many digits. -/
theorem ofDigits?_toString (n : Nat) :
    ofDigits? (toString n).toList =
      if n < pow10 mostDigits then some n else none := by
  have hmost : 0 < mostDigits := by decide
  rw [ofDigits?, digitsValue_toString]
  simp only [length_toString_le_iff n hmost]

end Number

end Folio
