import GoDecl.Arithmetic
import Mathlib.Data.Int.ModEq

/-! Arithmetic on runes against exact arithmetic on code points. Sums, differences, quotients and
remainders of code points need no more than 32 bits, so they are exact, and a result that is no
character is refused. Products may need more: what is checked then is their low 32 bits. -/
namespace GoDecl

/-- The code points of characters. -/
def IsScalar (n : Int) : Prop := 0 ≤ n ∧ n ≤ 0xd7ff ∨ 0xe000 ≤ n ∧ n ≤ 0x10ffff

instance (n : Int) : Decidable (IsScalar n) := inferInstanceAs (Decidable (_ ∨ _))

theorem codePoint_lt (c : Char) : (c.toNat : Int) < 0x110000 := by
  have valid : c.toNat < 0xd800 ∨ 0xdfff < c.toNat ∧ c.toNat < 0x110000 := c.valid
  omega

namespace Operator

def arithmetic : List Operator := [.add, .sub, .mul, .div, .rem]

/-- The exact result on numbers, with quotients truncated. Nothing is divided by zero. -/
def result? (op : Operator) (x y : Int) : Option Int :=
  match op with
  | .add => some (x + y)
  | .sub => some (x - y)
  | .mul => some (x * y)
  | .div => if y = 0 then none else some (x.tdiv y)
  | .rem => if y = 0 then none else some (x.tmod y)
  | .lt | .gt | .le | .ge => none

/-- The answer of exact arithmetic: the character whose code point is the result, and an error where
there is no result or no such character. -/
def ExactOnRunes (op : Operator) (a b : Char) (answer : Except EvalError Value) : Prop :=
  match op.result? a.toNat b.toNat with
  | none => answer = .error .divisionByZero
  | some r =>
    if IsScalar r then ∃ c : Char, c.toNat = r ∧ answer = .ok (.rune c)
    else ∃ code, answer = .error (.invalidCharacter code)

theorem runeOf_of_isScalar {n : Int} (scalar : IsScalar n) :
    ∃ c : Char, c.toNat = n ∧ runeOf n = .ok (.rune c) := by
  obtain ⟨code, rfl⟩ : ∃ code : Nat, n = code := ⟨n.toNat, by unfold IsScalar at scalar; omega⟩
  have valid : code.isValidChar := by
    unfold IsScalar at scalar
    unfold Nat.isValidChar
    omega
  refine ⟨.ofNat code, ?_, ?_⟩
  · rw [Char.ofNat, dif_pos valid]
    rfl
  · have inside : (code < 0xd800 || 0xdfff < code && code < 0x110000) = true := by
      simpa [Nat.isValidChar] using valid
    simp [runeOf, Text.scalar?, inside]

theorem runeOf_of_not_isScalar {n : Int} (outside : ¬ IsScalar n) :
    runeOf n = .error (.invalidCharacter n) := by
  unfold runeOf
  split
  · rfl
  · have invalid : ¬ (n.toNat < 0xd800 || 0xdfff < n.toNat && n.toNat < 0x110000) = true := by
      unfold IsScalar at outside
      simp only [Bool.or_eq_true, Bool.and_eq_true, decide_eq_true_eq]
      omega
    rw [Text.scalar?, if_neg invalid]

theorem runeOf_eq_ok {n : Int} {c : Char} (answer : runeOf n = .ok (.rune c)) : c.toNat = n := by
  by_cases scalar : IsScalar n
  · obtain ⟨d, point, rune⟩ := runeOf_of_isScalar scalar
    rw [rune] at answer
    cases answer
    exact point
  · rw [runeOf_of_not_isScalar scalar] at answer
    cases answer

/-- To take a number as a code point is right when the number is the result, or when both are no
characters. -/
theorem exactOnRunes_runeOf {op : Operator} {a b : Char} {r : Int}
    (result : op.result? a.toNat b.toNat = some r) (code : Int) :
    op.ExactOnRunes a b (runeOf code) ↔ code = r ∨ ¬ IsScalar r ∧ ¬ IsScalar code := by
  unfold ExactOnRunes
  rw [result]
  dsimp only
  split
  · next scalar =>
    constructor
    · rintro ⟨c, rfl, answer⟩
      exact .inl (runeOf_eq_ok answer).symm
    · rintro (rfl | ⟨outside, -⟩)
      · exact runeOf_of_isScalar scalar
      · exact absurd scalar outside
  · next outside =>
    constructor
    · rintro ⟨error, answer⟩
      refine .inr ⟨outside, fun scalar => ?_⟩
      obtain ⟨c, -, rune⟩ := runeOf_of_isScalar scalar
      rw [rune] at answer
      cases answer
    · rintro (rfl | ⟨-, other⟩)
      · exact ⟨code, runeOf_of_not_isScalar outside⟩
      · exact ⟨code, runeOf_of_not_isScalar other⟩

theorem wrap32_eq (n : Int) :
    wrap32 n = if n % 2 ^ 32 < 2 ^ 31 then n % 2 ^ 32 else n % 2 ^ 32 - 2 ^ 32 :=
  Int.bmod_def n (Nat.pow 2 32)

theorem wrap32_of_small {n : Int} (low : -2 ^ 31 ≤ n) (high : n < 2 ^ 31) : wrap32 n = n := by
  rw [wrap32_eq]
  split <;> omega

/-- A number beyond 32 bits with the code point of a character in the low ones. -/
def WrapsToScalar (n : Int) : Prop := 2 ^ 32 ≤ n ∧ IsScalar (n % 2 ^ 32)

theorem isScalar_wrap32 (n : Int) : IsScalar (wrap32 n) ↔ IsScalar (n % 2 ^ 32) := by
  rw [wrap32_eq]
  unfold IsScalar
  split <;> omega

/-- Wrapping goes wrong only where it leads from beyond 32 bits back to a character. -/
theorem wrap32_right_iff {n : Int} (nonneg : 0 ≤ n) :
    wrap32 n = n ∨ ¬ IsScalar n ∧ ¬ IsScalar (wrap32 n) ↔ ¬ WrapsToScalar n := by
  rw [isScalar_wrap32, wrap32_eq, WrapsToScalar]
  unfold IsScalar
  split <;> omega

theorem exactOnRunes_apply {op : Operator} (member : op ∈ arithmetic) (noProduct : op ≠ .mul)
    (a b : Char) : op.ExactOnRunes a b (op.apply (.rune a) (.rune b)) := by
  have small := codePoint_lt a
  have small' := codePoint_lt b
  cases op with
  | add =>
    have result : add.result? a.toNat b.toNat = some ((a.toNat : Int) + b.toNat) := rfl
    simp only [apply, applyRune]
    exact (exactOnRunes_runeOf result _).mpr (.inl (wrap32_of_small (by omega) (by omega)))
  | sub =>
    have result : sub.result? a.toNat b.toNat = some ((a.toNat : Int) - b.toNat) := rfl
    simp only [apply, applyRune]
    exact (exactOnRunes_runeOf result _).mpr (.inl (wrap32_of_small (by omega) (by omega)))
  | mul => exact absurd rfl noProduct
  | div | rem =>
    by_cases zero : (b.toNat : Int) = 0
    · simp [ExactOnRunes, apply, applyRune, result?, zero]
    · simp only [apply, applyRune, if_neg zero]
      exact (exactOnRunes_runeOf (by simp only [result?, if_neg zero]) _).mpr (.inl rfl)
  | lt | gt | le | ge => simp [arithmetic] at member

theorem exactOnRunes_mul (a b : Char) :
    mul.ExactOnRunes a b (mul.apply (.rune a) (.rune b)) ↔ ¬ WrapsToScalar (a.toNat * b.toNat) := by
  have result : mul.result? a.toNat b.toNat = some ((a.toNat : Int) * b.toNat) := rfl
  have nonneg : (0 : Int) ≤ a.toNat * b.toNat := Int.mul_nonneg (by omega) (by omega)
  simp only [apply, applyRune]
  exact (exactOnRunes_runeOf result _).trans (wrap32_right_iff nonneg)

/-- Arithmetic on runes is exact, except for products beyond 32 bits whose low 32 bits are the code
point of a character: these are answered with that character. -/
theorem apply_rune_exact_iff {op : Operator} (member : op ∈ arithmetic) (a b : Char) :
    (op.ExactOnRunes a b (op.apply (.rune a) (.rune b)) ↔
      ¬ (op = .mul ∧ WrapsToScalar (a.toNat * b.toNat))) ∧
    (WrapsToScalar (a.toNat * b.toNat) →
      ∃ c : Char, c.toNat = (a.toNat * b.toNat : Int) % 2 ^ 32 ∧
        mul.apply (.rune a) (.rune b) = .ok (.rune c)) := by
  constructor
  · by_cases product : op = .mul
    · subst product
      simpa using exactOnRunes_mul a b
    · exact iff_of_true (exactOnRunes_apply member product a b) fun wraps => product wraps.1
  · rintro ⟨-, scalar⟩
    obtain ⟨c, point, rune⟩ := runeOf_of_isScalar ((isScalar_wrap32 _).mpr scalar)
    refine ⟨c, ?_, rune⟩
    rw [point, wrap32_eq]
    unfold IsScalar at scalar
    split <;> omega

/-- Both squares need more than 32 bits. That of the last code point is refused all the same. -/
theorem apply_rune_exact_iff_of_squares :
    mul ∈ arithmetic ∧
      (¬ WrapsToScalar (0x10ffff * 0x10ffff) ∧
        mul.ExactOnRunes (.ofNat 0x10ffff) (.ofNat 0x10ffff)
          (mul.apply (.rune (.ofNat 0x10ffff)) (.rune (.ofNat 0x10ffff)))) ∧
      WrapsToScalar (0x10000 * 0x10000) ∧
        ∃ c : Char, c.toNat = (0 : Int) ∧
          mul.apply (.rune (.ofNat 0x10000)) (.rune (.ofNat 0x10000)) = .ok (.rune c) := by
  have kept : ¬ WrapsToScalar (0x10ffff * 0x10ffff) := by
    unfold WrapsToScalar
    decide
  have wraps : WrapsToScalar (0x10000 * 0x10000) := by
    unfold WrapsToScalar
    decide
  have product : mul ∈ arithmetic := by decide
  have last := apply_rune_exact_iff product (.ofNat 0x10ffff) (.ofNat 0x10ffff)
  have first := apply_rune_exact_iff product (.ofNat 0x10000) (.ofNat 0x10000)
  exact ⟨product, ⟨kept, last.1.mpr fun both => kept both.2⟩, wraps, first.2 wraps⟩

/-- The square of the first code point beyond 16 bits is taken for the null character. -/
theorem apply_rune_of_square :
    ¬ mul.ExactOnRunes (.ofNat 0x10000) (.ofNat 0x10000)
      (mul.apply (.rune (.ofNat 0x10000)) (.rune (.ofNat 0x10000))) := by
  have wraps : WrapsToScalar (0x10000 * 0x10000) := by
    unfold WrapsToScalar
    decide
  exact fun right => (exactOnRunes_mul _ _).mp right wraps

end Operator

end GoDecl
