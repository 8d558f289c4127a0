import GoDecl.Proofs.Evaluation
import Mathlib.Data.Int.ModEq
import Mathlib.Data.List.Induction
import Mathlib.Data.Nat.Digits.Defs

/-! Integer arithmetic without bounds. The operators wrap at every node, but wrapping keeps sums,
differences and products, so an expression has the value that its exact value wraps to. Overflow
inside an expression is made good where the exact value is back within 64 bits. -/
namespace GoDecl

/-- The value of a decimal numeral. -/
def numeral (text : List Char) : Nat :=
  Nat.ofDigits 10 (text.reverse.map fun c => c.toNat - '0'.toNat)

theorem Decimal.ofDigits_eq (text : List Char) : ofDigits text = numeral text := by
  induction text using List.reverseRecOn with
  | nil => rfl
  | append_singleton front c ih =>
    have step : numeral (front ++ [c]) = c.toNat - '0'.toNat + 10 * numeral front := by
      rw [numeral, numeral, List.reverse_append, List.map_append]
      exact Nat.ofDigits_cons
    rw [step, ← ih, ofDigits, ofDigits, List.foldl_append, Nat.add_comm]
    rfl

theorem Literal.eval_int (env : Environment) {text : String}
    (digits : ∀ c ∈ text.toList, Text.isDigit c = true) (fits : numeral text.toList < 2 ^ 63) :
    Literal.eval env (.int text) = .ok (.int (.ofInt (numeral text.toList))) := by
  have small : Decimal.ofDigits text.toList ≤ maxInt := by
    rw [Decimal.ofDigits_eq]
    exact Nat.le_pred_of_lt fits
  have value : intValue? text = some (.ofNat (numeral text.toList)) := by
    rw [← Decimal.ofDigits_eq]
    simpa [intValue?, small] using digits
  rw [eval, value, Int64.ofInt_eq_ofNat]

namespace Expr

/-- The exact value of an expression of decimal numerals, names of integers, parentheses, negation,
addition, subtraction and multiplication. The boolean words are names like any other. -/
inductive Exact (env : Environment) : Expr → Int → Prop where
  | numeral {text : String} (nonempty : text.toList ≠ [])
      (digits : ∀ c ∈ text.toList, Text.isDigit c = true)
      (fits : numeral text.toList ≤ 2 ^ 63 - 1) :
      Exact env (.literal (.int text)) (numeral text.toList)
  | name {text : String} {n : Int64} (bound : env.get? text = some (.int n)) :
      Exact env (.name text) n.toInt
  | word {b : Bool} {n : Int64} (bound : env.get? (Value.boolText b) = some (.int n)) :
      Exact env (.literal (.bool b)) n.toInt
  | paren {e : Expr} {z : Int} (inner : Exact env e z) : Exact env (.paren e) z
  | neg {e : Expr} {z : Int} (operand : Exact env e z) : Exact env (.unary .neg e) (-z)
  | add {left right : Expr} {x y : Int} (first : Exact env left x) (second : Exact env right y) :
      Exact env (.binary (.plain .add) left right) (x + y)
  | sub {left right : Expr} {x y : Int} (first : Exact env left x) (second : Exact env right y) :
      Exact env (.binary (.plain .sub) left right) (x - y)
  | mul {left right : Expr} {x y : Int} (first : Exact env left x) (second : Exact env right y) :
      Exact env (.binary (.plain .mul) left right) (x * y)

theorem Exact.value_eq {env : Environment} {e : Expr} {z : Int} (exact : Exact env e z) :
    e.value env = .ok (.int (.ofInt z)) := by
  induction exact with
  | numeral nonempty digits fits => exact Literal.eval_int env digits (by omega)
  | name bound | word bound =>
    rw [Int64.ofInt_toInt]
    simp only [value, Literal.eval, Environment.lookup, bound]
  | paren inner ih => exact ih
  | neg operand ih =>
    rw [value, ih, Int64.ofInt_neg]
    rfl
  | add first second ihFirst ihSecond =>
    rw [value, ihFirst, ihSecond, Int64.ofInt_add]
    rfl
  | sub first second ihFirst ihSecond =>
    rw [value, ihFirst, ihSecond, Int64.ofInt_sub]
    rfl
  | mul first second ihFirst ihSecond =>
    rw [value, ihFirst, ihSecond, Int64.ofInt_mul]
    rfl

end Expr

/-- A wrapped number is the only one within 64 bits that the number is congruent to. -/
theorem toInt_ofInt_iff (z m : Int) :
    (-2 ^ 63 ≤ m ∧ m < 2 ^ 63 ∧ m ≡ z [ZMOD 2 ^ 64]) ↔ m = (Int64.ofInt z).toInt := by
  have wrapped : (Int64.ofInt z).toInt = z.bmod (2 ^ 64) := Int64.toInt_ofInt
  constructor
  · rintro ⟨low, high, congruent⟩
    rw [wrapped]
    have same : m.bmod (2 ^ 64) = z.bmod (2 ^ 64) := by
      rw [← Int.emod_bmod m, ← Int.emod_bmod z]
      exact congrArg (Int.bmod · (2 ^ 64)) congruent
    rw [← same]
    exact (Int.bmod_eq_of_le (by omega) (by omega)).symm
  · rintro rfl
    refine ⟨Int64.le_toInt _, Int64.toInt_lt _, ?_⟩
    rw [wrapped]
    exact Int.bmod_emod

/-- Where the limit on nesting is not met, an integer expression has a value, and it is the one
number within 64 bits that is congruent to the exact value. -/
theorem Expr.Exact.eval_wraps_once {env : Environment} {e : Expr} {z : Int} {max : Nat}
    (exact : Exact env e z) (fits : env.depth + e.height ≤ max) :
    ∃ n : Int64, (e.eval max env).answer = .ok (.int n) ∧
      ∀ m : Int, (-2 ^ 63 ≤ m ∧ m < 2 ^ 63 ∧ m ≡ z [ZMOD 2 ^ 64]) ↔ m = n.toInt := by
  refine ⟨.ofInt z, ?_, toInt_ofInt_iff z⟩
  rw [eval_of_fits max e env fits, exact.value_eq]

/-- `-a - 1` with the least integer: its negation overflows and the difference makes that good. -/
theorem Expr.Exact.eval_wraps_once_of_minValue :
    let e : Expr := .binary (.plain .sub) (.unary .neg (.name "a")) (.literal (.int "1"))
    let env : Environment := { bindings := [("a", .int Int64.minValue)] }
    Exact env e (-Int64.minValue.toInt - 1) ∧ env.depth + e.height ≤ 3 ∧
      ∃ n : Int64, (e.eval 3 env).answer = .ok (.int n) ∧ n.toInt = 2 ^ 63 - 1 := by
  intro e env
  have digits : ∀ c ∈ "1".toList, Text.isDigit c = true := by
    intro c member
    obtain rfl := List.mem_singleton.mp member
    rfl
  have exact : Exact env e (-Int64.minValue.toInt - 1) :=
    .sub (.neg (.name rfl)) (.numeral (by decide) digits (by decide))
  have fits : env.depth + e.height ≤ 3 := by decide
  obtain ⟨n, answer, only⟩ := exact.eval_wraps_once fits
  exact ⟨exact, fits, n, answer, ((only _).mp (by decide)).symm⟩

end GoDecl
