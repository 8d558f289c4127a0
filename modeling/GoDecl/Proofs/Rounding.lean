import GoDecl.Number.Single
import Mathlib.Algebra.Order.Field.Power
import Mathlib.Data.Int.Log
import Mathlib.Data.Rat.Floor
import Mathlib.Tactic.Linarith
import Mathlib.Tactic.Positivity
import Mathlib.Tactic.Ring

/-! Rounding of exact rationals: to the nearest whole number, where a tie goes to the even one, and
to a count of significant decimal digits, which is the same on the grid of the last of them. -/
namespace GoDecl

/-- A whole number that is nearest to a number, and even if there is another one as near. -/
def NearestEven (x : Rat) (n : Int) : Prop := |x - n| < 1 / 2 ∨ |x - n| = 1 / 2 ∧ Even n

namespace NearestEven

section Bounds

variable {x : Rat} {m n : Int}

theorem abs_le (nearest : NearestEven x n) : |x - n| ≤ 1 / 2 :=
  nearest.elim le_of_lt fun tie => tie.1.le

theorem even_of_tie (nearest : NearestEven x n) (tie : |x - n| = 1 / 2) : Even n :=
  nearest.elim (fun nearer => absurd tie nearer.ne) And.right

/-- Two neighbours are not both nearest: the number would be halfway between them, and one of them
is odd. -/
theorem not_succ (nearest : NearestEven x n) : ¬ NearestEven x (n + 1) := by
  intro next
  have near := abs_sub_le_iff.mp nearest.abs_le
  have near' := abs_sub_le_iff.mp next.abs_le
  push_cast at near'
  have halfway : x = n + 1 / 2 := by linarith
  have even : Even n := nearest.even_of_tie (by rw [halfway]; norm_num)
  have even' : Even (n + 1) := next.even_of_tie (by rw [halfway]; push_cast; norm_num)
  exact Int.even_add_one.mp even' even

theorem unique (nearest : NearestEven x m) (nearest' : NearestEven x n) : m = n := by
  have near := abs_sub_le_iff.mp nearest.abs_le
  have near' := abs_sub_le_iff.mp nearest'.abs_le
  have above : (m : Rat) ≤ (n + 1 : Int) := by push_cast; linarith
  have below : (n : Rat) ≤ (m + 1 : Int) := by push_cast; linarith
  rw [Int.cast_le] at above below
  obtain rfl | rfl | rfl : m = n ∨ m = n + 1 ∨ n = m + 1 := by omega
  · rfl
  · exact absurd nearest nearest'.not_succ
  · exact absurd nearest' nearest.not_succ

/-- Rounding does not cross a whole number. -/
theorem le_of_le (nearest : NearestEven x n) (bound : m ≤ x) : m ≤ n := by
  have near := abs_sub_le_iff.mp nearest.abs_le
  have less : (m : Rat) < (n + 1 : Int) := by push_cast; linarith
  exact Int.lt_add_one_iff.mp (Int.cast_lt.mp less)

theorem le_of_ge (nearest : NearestEven x n) (bound : x ≤ m) : n ≤ m := by
  have near := abs_sub_le_iff.mp nearest.abs_le
  have less : (n : Rat) < (m + 1 : Int) := by push_cast; linarith
  exact Int.lt_add_one_iff.mp (Int.cast_lt.mp less)

end Bounds

section Parts

variable (n : Int) {f : Rat}

theorem of_lt_half (positive : 0 ≤ f) (small : f < 1 / 2) : NearestEven (n + f) n := by
  left
  rwa [add_sub_cancel_left, abs_of_nonneg positive]

theorem of_half_lt (large : 1 / 2 < f) (below : f < 1) : NearestEven (n + f) (n + 1) := by
  left
  rw [Int.cast_add, Int.cast_one, abs_lt]
  constructor <;> linarith

theorem of_half : NearestEven (n + 1 / 2) (n + n % 2) := by
  right
  rcases Int.emod_two_eq_zero_or_one n with even | odd
  · rw [even, add_zero, add_sub_cancel_left]
    exact ⟨by norm_num, Int.even_iff.mpr even⟩
  · rw [odd, Int.cast_add, Int.cast_one, add_sub_add_left_eq_sub]
    exact ⟨by norm_num, Int.even_add_one.mpr (Int.not_even_iff.mpr odd)⟩

end Parts

end NearestEven

/-- Twice the remainder says on which side of the middle a quotient is. -/
theorem Single.roundDiv_nearest (num : Nat) {den : Nat} (positive : 0 < den) :
    NearestEven (num / den) (roundDiv num den) := by
  have scale : (0 : Rat) < den := by exact_mod_cast positive
  have parts : (num / den : Rat) = ((num / den : Nat) : Int) + (num % den : Nat) / den := by
    rw [Int.cast_natCast, add_div' _ _ _ scale.ne']
    congr 1
    exact_mod_cast (Nat.div_add_mod' num den).symm
  rw [parts, roundDiv]
  split
  · have small : ((num % den : Nat) : Rat) / den < 1 / 2 := by
      rw [div_lt_div_iff₀ scale two_pos]
      exact_mod_cast (by omega : num % den * 2 < 1 * den)
    exact .of_lt_half _ (by positivity) small
  · split
    · have large : 1 / 2 < ((num % den : Nat) : Rat) / den := by
        rw [div_lt_div_iff₀ two_pos scale]
        exact_mod_cast (by omega : 1 * den < num % den * 2)
      have below : ((num % den : Nat) : Rat) / den < 1 := by
        rw [div_lt_one scale]
        exact_mod_cast Nat.mod_lt num positive
      exact .of_half_lt _ large below
    · have tie : ((num % den : Nat) : Rat) / den = 1 / 2 := by
        rw [div_eq_div_iff scale.ne' two_ne_zero]
        exact_mod_cast (by omega : num % den * 2 = 1 * den)
      rw [tie]
      exact .of_half _

/-- The place of the last of a count of significant decimal digits of a positive number. -/
def lastPlace (count : Nat) (x : Rat) : Int := Int.log 10 x - (count - 1)

/-- A positive number rounded to a count of significant decimal digits, half to even. -/
def RoundedTo (count : Nat) (x y : Rat) : Prop :=
  ∃ n : Int, NearestEven (x / 10 ^ lastPlace count x) n ∧ y = n * 10 ^ lastPlace count x

theorem RoundedTo.unique {count : Nat} {x y z : Rat} (rounded : RoundedTo count x y)
    (rounded' : RoundedTo count x z) : y = z := by
  obtain ⟨m, nearest, rfl⟩ := rounded
  obtain ⟨n, nearest', rfl⟩ := rounded'
  rw [nearest.unique nearest']

theorem log_eq_of_bounds {x : Rat} {e : Int} (low : 10 ^ e ≤ x) (high : x < 10 ^ (e + 1)) :
    Int.log 10 x = e := by
  have positive : 0 < x := lt_of_lt_of_le (by positivity) low
  have least := (Int.zpow_le_iff_le_log (b := 10) (by decide) positive).mp (by exact_mod_cast low)
  have most := (Int.lt_zpow_iff_log_lt (b := 10) (by decide) positive).mp (by exact_mod_cast high)
  omega

/-- On the grid of its last place a number has as many digits before the point as are to be kept. -/
theorem lastPlace_bounds {x : Rat} (positive : 0 < x) (count : Nat) :
    10 ^ count ≤ x / 10 ^ lastPlace (count + 1) x ∧
      x / 10 ^ lastPlace (count + 1) x < 10 ^ (count + 1) := by
  have low : (10 : Rat) ^ Int.log 10 x ≤ x := by
    exact_mod_cast Int.zpow_log_le_self (b := 10) (by decide) positive
  have high : x < (10 : Rat) ^ (Int.log 10 x + 1) := by
    exact_mod_cast Int.lt_zpow_succ_log_self (b := 10) (by decide) x
  have scale : (0 : Rat) < 10 ^ lastPlace (count + 1) x := by positivity
  have place : lastPlace (count + 1) x = Int.log 10 x - count := by
    rw [lastPlace]
    push_cast
    ring
  rw [le_div_iff₀ scale, div_lt_iff₀ scale, place, ← zpow_natCast, ← zpow_natCast,
    ← zpow_add₀ (by norm_num), ← zpow_add₀ (by norm_num)]
  push_cast
  constructor
  · rwa [add_sub_cancel]
  · rwa [show (count + 1 + (Int.log 10 x - count) : Int) = Int.log 10 x + 1 by ring]

/-- Rounding keeps the count of digits, but for a carry into one more. -/
theorem digits_of_nearest {x : Rat} (positive : 0 < x) {count : Nat} {n : Int}
    (nearest : NearestEven (x / 10 ^ lastPlace (count + 1) x) n) :
    10 ^ count ≤ n ∧ n ≤ 10 ^ (count + 1) := by
  obtain ⟨low, high⟩ := lastPlace_bounds positive count
  exact ⟨nearest.le_of_le (by exact_mod_cast low), nearest.le_of_ge (by exact_mod_cast high.le)⟩

end GoDecl
