import GoDecl.Proofs.Integers

/-! Numbers as texts of decimal digits, with zeros in front where a width asks for them. What is
printed for a number is a numeral of it. -/
namespace GoDecl

theorem numeral_eq_ofDigitChars (text : List Char) : numeral text = Nat.ofDigitChars 10 text 0 :=
  (Decimal.ofDigits_eq text).symm

theorem numeral_append (front back : List Char) :
    numeral (front ++ back) = numeral front * 10 ^ back.length + numeral back := by
  simp only [numeral_eq_ofDigitChars, Nat.ofDigitChars_append]
  rw [Nat.ofDigitChars_eq_ofDigitChars_zero, Nat.mul_comm]

namespace Decimal

theorem digits_ne_nil (n : Nat) : digits n ≠ [] := Nat.toDigits_ne_nil

theorem isDigit_of_mem_digits {n : Nat} {c : Char} (member : c ∈ digits n) :
    Text.isDigit c = true := by
  have digit : c.isDigit = true := Nat.isDigit_of_mem_toDigits (by decide) (by decide) member
  simpa [Text.isDigit, Char.isDigit, Char.le_def] using digit

theorem numeral_digits (n : Nat) : numeral (digits n) = n := by
  rw [numeral_eq_ofDigitChars]
  exact Nat.ofDigitChars_ten_toDigits

theorem digits_of_lt_ten {n : Nat} (small : n < 10) : digits n = [n.digitChar] :=
  Nat.toDigits_of_lt_base small

theorem length_digits_le_iff {width n : Nat} (positive : 0 < width) :
    (digits n).length ≤ width ↔ n < 10 ^ width :=
  Nat.length_toDigits_le_iff (by decide) positive

theorem digits_bounds {n : Nat} (positive : 0 < n) :
    10 ^ ((digits n).length - 1) ≤ n ∧ n < 10 ^ (digits n).length := by
  have some : 0 < (digits n).length := List.length_pos_iff.mpr (digits_ne_nil n)
  refine ⟨?_, (length_digits_le_iff some).mp le_rfl⟩
  rcases Nat.eq_zero_or_pos ((digits n).length - 1) with single | several
  · rw [single]
    exact positive
  · exact not_lt.mp fun small => by
      have short := (length_digits_le_iff several).mpr small
      omega

section Padded

variable {width n : Nat}

theorem isDigit_of_mem_padded {c : Char} (member : c ∈ padded width n) :
    Text.isDigit c = true := by
  rw [padded, List.mem_append] at member
  rcases member with zero | digit
  · rw [List.eq_of_mem_replicate zero]
    rfl
  · exact isDigit_of_mem_digits digit

theorem numeral_padded : numeral (padded width n) = n := by
  have zeros (count : Nat) : numeral (List.replicate count '0') = 0 := by
    rw [numeral_eq_ofDigitChars, Nat.ofDigitChars_replicate_zero, Nat.mul_zero]
  rw [padded, numeral_append, zeros, numeral_digits, Nat.zero_mul, Nat.zero_add]

theorem le_length_padded : width ≤ (padded width n).length := by
  rw [padded, List.length_append, List.length_replicate]
  omega

theorem length_padded (positive : 0 < width) (fits : n < 10 ^ width) :
    (padded width n).length = width := by
  have short := (length_digits_le_iff positive).mpr fits
  rw [padded, List.length_append, List.length_replicate]
  omega

end Padded

end Decimal

end GoDecl
