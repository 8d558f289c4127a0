import GoDecl.Proofs.Integers
import Mathlib.Data.Rat.Floor

/-! Quotients and remainders of integers. A quotient is truncated, so what is left has the sign of
the dividend and less than the size of the divisor. Only one quotient does not fit into 64 bits, and
where it is multiplied back the product overflows once more, which makes that good. -/
namespace GoDecl

/-- What is left of a number when its fraction is dropped. -/
def wholePart (x : Rat) : Int := if 0 ≤ x then ⌊x⌋ else ⌈x⌉

theorem wholePart_neg (x : Rat) : wholePart (-x) = -wholePart x := by
  unfold wholePart
  rcases lt_trichotomy x 0 with negative | rfl | positive
  · rw [if_pos (neg_nonneg.mpr negative.le), if_neg negative.not_ge, Int.floor_neg]
  · simp
  · rw [if_neg (neg_lt_zero.mpr positive).not_ge, if_pos positive.le, Int.ceil_neg]

theorem wholePart_natCast_div (m n : Nat) : wholePart (m / n) = m / n := by
  rw [wholePart, if_pos (by positivity), Rat.floor_natCast_div_natCast]

theorem wholePart_div (a b : Int) : wholePart (a / b) = a.tdiv b := by
  obtain ⟨m, rfl | rfl⟩ := a.eq_nat_or_neg <;> obtain ⟨n, rfl | rfl⟩ := b.eq_nat_or_neg <;>
    simp [neg_div, div_neg, wholePart_neg, wholePart_natCast_div]

theorem natAbs_tmod_lt (a : Int) {b : Int} (nonzero : b ≠ 0) : (a.tmod b).natAbs < b.natAbs := by
  rw [Int.natAbs_tmod]
  exact Nat.mod_lt _ (Int.natAbs_pos.mpr nonzero)

theorem tmod_eq_zero_or_sign (a b : Int) : a.tmod b = 0 ∨ (a.tmod b).sign = a.sign := by
  have sign := Int.sign_tmod a b
  split at sign
  · exact .inl (Int.sign_eq_zero_iff_zero.mp sign)
  · exact .inr sign

namespace Operator

variable (a b : Int64)

theorem div_eq_ofInt : a / b = .ofInt (a.toInt.tdiv b.toInt) := by
  rw [← Int64.toInt_inj, Int64.toInt_div, Int64.toInt_ofInt]

theorem mod_eq_ofInt : a % b = .ofInt (a.toInt.tmod b.toInt) := by
  rw [← Int64.toInt_mod, Int64.ofInt_toInt]

theorem div_mul_add_mod : a / b * b + a % b = a := by
  have exact : a.toInt.tdiv b.toInt * b.toInt + a.toInt.tmod b.toInt = a.toInt :=
    Int.tdiv_mul_add_tmod ..
  calc a / b * b + a % b
      = .ofInt (a.toInt.tdiv b.toInt * b.toInt + a.toInt.tmod b.toInt) := by
        rw [Int64.ofInt_add, Int64.ofInt_mul, ← div_eq_ofInt, ← mod_eq_ofInt, Int64.ofInt_toInt]
    _ = a := by rw [exact, Int64.ofInt_toInt]

/-- A dividend taken apart and put together again. -/
def recombined (a b : Int64) : Except EvalError Value := do
  let quotient ← div.apply (.int a) (.int b)
  let multiple ← mul.apply quotient (.int b)
  let remainder ← rem.apply (.int a) (.int b)
  add.apply multiple remainder

/-- Nothing is divided by zero. By all else there is a quotient, the exact one truncated and reduced
to 64 bits, and a remainder, which is what the truncated quotient leaves; together they give the
dividend back. -/
theorem div_rem_recombine :
    (b = 0 → div.apply (.int a) (.int b) = .error .divisionByZero ∧
      rem.apply (.int a) (.int b) = .error .divisionByZero) ∧
    (b ≠ 0 → ∃ q r : Int64,
      div.apply (.int a) (.int b) = .ok (.int q) ∧ rem.apply (.int a) (.int b) = .ok (.int r) ∧
      (∀ m : Int, (-2 ^ 63 ≤ m ∧ m < 2 ^ 63 ∧ m ≡ wholePart (a.toInt / b.toInt) [ZMOD 2 ^ 64]) ↔
        m = q.toInt) ∧
      r.toInt = a.toInt - wholePart (a.toInt / b.toInt) * b.toInt ∧
      r.toInt.natAbs < b.toInt.natAbs ∧ (r.toInt = 0 ∨ r.toInt.sign = a.toInt.sign) ∧
      recombined a b = .ok (.int a)) := by
  constructor
  · rintro rfl
    exact ⟨rfl, rfl⟩
  · intro nonzero
    have quotient : div.apply (.int a) (.int b) = .ok (.int (a / b)) := by
      simp [apply, applyInt, nonzero]
    have remainder : rem.apply (.int a) (.int b) = .ok (.int (a % b)) := by
      simp [apply, applyInt, nonzero]
    have nonzero' : b.toInt ≠ 0 := fun zero => nonzero (Int64.toInt_inj.mp zero)
    refine ⟨a / b, a % b, quotient, remainder, ?_, ?_, ?_, ?_, ?_⟩
    · rw [wholePart_div, div_eq_ofInt]
      exact toInt_ofInt_iff _
    · rw [wholePart_div, Int64.toInt_mod, Int.tmod_def, Int.mul_comm]
    · rw [Int64.toInt_mod]
      exact natAbs_tmod_lt _ nonzero'
    · rw [Int64.toInt_mod]
      exact tmod_eq_zero_or_sign ..
    · have whole : recombined a b = .ok (.int (a / b * b + a % b)) := by
        rw [recombined, quotient, remainder]
        rfl
      rw [whole, div_mul_add_mod]

/-- The least integer divided by minus one: the quotient overflows, and so does its multiple. -/
theorem div_rem_recombine_of_minValue :
    (-1 : Int64) ≠ 0 ∧ div.apply (.int Int64.minValue) (.int (-1)) = .ok (.int Int64.minValue) ∧
      rem.apply (.int Int64.minValue) (.int (-1)) = .ok (.int 0) ∧
      recombined Int64.minValue (-1) = .ok (.int Int64.minValue) ∧
      div.apply (.int Int64.minValue) (.int 0) = .error .divisionByZero := by
  have nonzero : (-1 : Int64) ≠ 0 := by decide
  obtain ⟨_, _, -, -, -, -, -, -, whole⟩ :=
    (div_rem_recombine Int64.minValue (-1)).2 nonzero
  have byZero := (div_rem_recombine Int64.minValue 0).1 rfl
  exact ⟨nonzero, by decide, by decide, whole, byZero.1⟩

end Operator

end GoDecl
