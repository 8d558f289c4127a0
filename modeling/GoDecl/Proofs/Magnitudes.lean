import GoDecl.Number.Single
import Mathlib.Algebra.Order.Ring.Rat
import Mathlib.Tactic.NormNum
import Mathlib.Tactic.Positivity
import Mathlib.Tactic.Ring

/-! The numbers that bit patterns stand for, as exact rationals. Patterns count their units of
2⁻¹⁴⁹, so the order of their magnitude bits is the order of what they stand for, also where one more
in the last place carries into the exponent. -/
namespace GoDecl.Single

def exponentField (x : Single) : Nat := x.bits.toNat / 2 ^ 23 % 2 ^ 8

def fractionField (x : Single) : Nat := x.bits.toNat % 2 ^ 23

/-- The number that an exponent and a fraction stand for: with the least exponent the fraction
stands alone, and otherwise behind a one. -/
def scale (exponent fraction : Nat) : Rat :=
  if exponent = 0 then fraction / 2 ^ 23 * 2 ^ (-126 : Int)
  else (1 + fraction / 2 ^ 23) * 2 ^ ((exponent : Int) - 127)

/-- The number that a pattern stands for. Read in this way, the infinite patterns stand for the
first powers of two that are out of range. -/
def toRat (x : Single) : Rat :=
  (if x.bits.toNat / 2 ^ 31 = 1 then -1 else 1) * scale x.exponentField x.fractionField

theorem bits_lt (x : Single) : x.bits.toNat < 2 ^ 32 := x.bits.toNat_lt

theorem fractionField_lt (x : Single) : x.fractionField < 2 ^ 23 := Nat.mod_lt _ (by decide)

theorem isNegative_eq (x : Single) : x.isNegative = decide (x.bits.toNat / 2 ^ 31 = 1) := by
  have small := x.bits_lt
  simp only [isNegative, decide_eq_decide]
  omega

theorem magnitude_eq (x : Single) :
    x.magnitude = x.exponentField * 2 ^ 23 + x.fractionField := by
  simp only [magnitude, exponentField, fractionField]
  omega

theorem unitsOf_zero : unitsOf 0 = 0 := rfl

theorem unitsOf_eq (exponent : Nat) {fraction : Nat} (below : fraction < 2 ^ 23) :
    unitsOf (exponent * 2 ^ 23 + fraction) =
      if exponent = 0 then fraction else (2 ^ 23 + fraction) * 2 ^ (exponent - 1) := by
  have high : (exponent * 2 ^ 23 + fraction) / 0x800000 = exponent := by omega
  have low : (exponent * 2 ^ 23 + fraction) % 0x800000 = fraction := by omega
  simp only [unitsOf, high, low]
  rfl

/-- One more in the last place is more units. -/
theorem unitsOf_lt_succ (magnitude : Nat) : unitsOf magnitude < unitsOf (magnitude + 1) := by
  obtain ⟨exponent, fraction, below, rfl⟩ : ∃ exponent fraction, fraction < 2 ^ 23 ∧
      magnitude = exponent * 2 ^ 23 + fraction :=
    ⟨magnitude / 2 ^ 23, magnitude % 2 ^ 23, Nat.mod_lt _ (by decide),
      (Nat.div_add_mod' magnitude (2 ^ 23)).symm⟩
  rw [unitsOf_eq exponent below]
  rcases Nat.lt_or_eq_of_le (Nat.succ_le_of_lt below) with within | full
  · rw [Nat.add_assoc, unitsOf_eq exponent within]
    split
    · exact Nat.lt_succ_self fraction
    · exact Nat.mul_lt_mul_of_pos_right (by omega) (Nat.two_pow_pos _)
  · -- The fraction is full, so the carry doubles the unit of the last place.
    have carry : exponent * 2 ^ 23 + fraction + 1 = (exponent + 1) * 2 ^ 23 + 0 := by omega
    rw [carry, unitsOf_eq _ (by decide)]
    cases exponent with
    | zero =>
      simp only [if_true, Nat.zero_add, one_ne_zero, if_false]
      omega
    | succ e =>
      simp only [Nat.add_eq_zero_iff, one_ne_zero, and_false, if_false, Nat.add_sub_cancel]
      calc (2 ^ 23 + fraction) * 2 ^ e
          < (2 ^ 23 + 2 ^ 23) * 2 ^ e :=
            Nat.mul_lt_mul_of_pos_right (by omega) (Nat.two_pow_pos e)
        _ = (2 ^ 23 + 0) * 2 ^ (e + 1) := by ring

theorem unitsOf_strictMono : StrictMono unitsOf := strictMono_nat_of_lt_succ unitsOf_lt_succ

theorem scale_eq (exponent : Nat) {fraction : Nat} (below : fraction < 2 ^ 23) :
    scale exponent fraction = unitsOf (exponent * 2 ^ 23 + fraction) / 2 ^ 149 := by
  rw [unitsOf_eq exponent below, scale]
  cases exponent with
  | zero =>
    simp only [if_true]
    norm_num
    ring
  | succ e =>
    have power : (2 : Rat) ^ (((e + 1 : Nat) : Int) - 127) = 2 ^ e / 2 ^ 126 := by
      rw [show ((e + 1 : Nat) : Int) - 127 = (e : Int) - (126 : Nat) by omega,
        zpow_sub₀ two_ne_zero, zpow_natCast, zpow_natCast]
    simp only [Nat.add_eq_zero_iff, one_ne_zero, and_false, if_false, Nat.add_sub_cancel, power]
    push_cast
    ring

theorem toRat_eq (x : Single) : x.toRat = x.signedUnits / 2 ^ 149 := by
  rw [toRat, scale_eq _ x.fractionField_lt, ← magnitude_eq, signedUnits, isNegative_eq, units]
  by_cases negative : x.bits.toNat / 2 ^ 31 = 1
  · simp only [negative, if_true, decide_true]
    push_cast
    ring
  · simp only [negative, if_false, decide_false, Bool.false_eq_true]
    push_cast
    ring

theorem abs_toRat (x : Single) : |x.toRat| = x.units / 2 ^ 149 := by
  have units : |(x.signedUnits : Rat)| = x.units := by
    rw [signedUnits]
    split <;> simp
  rw [toRat_eq, abs_div, units, abs_of_pos (show (0 : Rat) < 2 ^ 149 by positivity)]

theorem signedUnits_lt_iff (x y : Single) :
    x.signedUnits < y.signedUnits ↔ x.orderKey < y.orderKey := by
  have grows (m n : Nat) : unitsOf m < unitsOf n ↔ m < n := unitsOf_strictMono.lt_iff_lt
  have positive := grows 0 x.magnitude
  have positive' := grows 0 y.magnitude
  have less := grows x.magnitude y.magnitude
  have greater := grows y.magnitude x.magnitude
  rw [unitsOf_zero] at positive positive'
  simp only [signedUnits, orderKey, units]
  split <;> split <;> omega

theorem toRat_lt_iff (x y : Single) : x.toRat < y.toRat ↔ x.orderKey < y.orderKey := by
  rw [toRat_eq, toRat_eq, div_lt_div_iff_of_pos_right (by positivity), Int.cast_lt,
    signedUnits_lt_iff]

/-- Numbers are ordered as what they stand for. -/
theorem compare?_eq {x y : Single} (number : x.isNaN = false) (number' : y.isNaN = false) :
    x.compare? y = some (compare x.toRat y.toRat) := by
  have less := toRat_lt_iff x y
  have greater := toRat_lt_iff y x
  simp only [compare?, number, number', Bool.or_self, Bool.false_eq_true, if_false,
    Option.some.injEq]
  rcases lt_trichotomy x.orderKey y.orderKey with before | same | behind
  · rw [compare_lt_iff_lt.mpr before, compare_lt_iff_lt.mpr (less.mpr before)]
  · have equal : x.toRat = y.toRat := by
      refine le_antisymm (not_lt.mp fun after => ?_) (not_lt.mp fun after => ?_)
      · exact absurd (greater.mp after) (same ▸ lt_irrefl _)
      · exact absurd (less.mp after) (same ▸ lt_irrefl _)
    rw [compare_eq_iff_eq.mpr same, compare_eq_iff_eq.mpr equal]
  · rw [compare_gt_iff_gt.mpr behind, compare_gt_iff_gt.mpr (greater.mpr behind)]

/-- With a NaN there is no order. -/
theorem compare?_nan {x y : Single} (nan : x.isNaN = true ∨ y.isNaN = true) :
    x.compare? y = none := by
  rcases nan with nan | nan <;> simp [compare?, nan]

end GoDecl.Single
