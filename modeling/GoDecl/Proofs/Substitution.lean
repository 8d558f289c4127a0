import GoDecl.Proofs.Slots

/-! A name stands for its initialiser: where a name is bound to the value of an expression, the
parenthesised expression may be written for it. -/
namespace GoDecl

open Environment

theorem Environment.get?_define (env : Environment) (name other : String) (value : Value)
    (free : ¬ env.prelude.contains name) :
    (define name value env).env.get? other =
      if name = other then some value else env.get? other := by
  have bound := get?_bindSlot env name other (some value)
  change (define name value env).env.get? other = _ at bound
  rw [bound]
  by_cases same : name = other
  · rw [if_neg (same ▸ free), if_pos same]
  · simp only [if_neg same, ite_self]

theorem Environment.lookup_congr {env other : Environment} {name : String}
    (same : env.get? name = other.get? name) : env.lookup name = other.lookup name := by
  simp only [lookup, same]

namespace Expr

/-- Writes an expression for every occurrence of a name as an operand. Shapes that have no value are
left alone. -/
def substitute (e : Expr) (x : String) (replacement : Expr) : Expr :=
  match e with
  | .name y => if x = y then replacement else .name y
  | .unary op operand => .unary op (operand.substitute x replacement)
  | .binary op left right =>
    .binary op (left.substitute x replacement) (right.substitute x replacement)
  | .paren inner => .paren (inner.substitute x replacement)
  | .group inner => .group (inner.substitute x replacement)
  | .literal _ | .qualified .. | .other .. => e

theorem height_le_substitute (e : Expr) (x : String) (replacement : Expr) :
    e.height ≤ (e.substitute x replacement).height := by
  induction e with
  | name y =>
    simp only [substitute]
    split
    · exact replacement.height_pos
    · exact Nat.le_refl _
  | unary op operand ih => exact Nat.succ_le_succ ih
  | binary op left right ihLeft ihRight =>
    simp only [substitute, height]
    omega
  | paren inner ih | group inner ih => exact Nat.succ_le_succ ih
  | literal | qualified | other => exact Nat.le_refl _

/-- Without a limit, the value after a definition is the value of the expression with the definition
written out. The replacement is evaluated in the table before, so it may use the old binding. -/
theorem value_after_define {env : Environment} {x : String} {v : Value} {replacement : Expr}
    (free : ¬ env.prelude.contains x) (noBool : ∀ b, x ≠ Value.boolText b)
    (valued : replacement.value env = .ok v) (e : Expr) :
    e.value (define x v env).env = (e.substitute x replacement).value env := by
  have found (other : String) := get?_define env x other v free
  induction e with
  | name y =>
    have defined := found y
    simp only [substitute]
    split at defined
    · next same =>
      rw [if_pos same, valued]
      simp only [value, lookup, defined]
    · next apart =>
      rw [if_neg apart]
      exact lookup_congr defined
  | literal l =>
    cases l with
    | bool b =>
      have kept := found (Value.boolText b)
      rw [if_neg (noBool b)] at kept
      exact lookup_congr kept
    | int | float | string | rune | byteString | zeroEnded | byte | verbatim => rfl
  | unary op operand ih => simp only [substitute, value, ih]
  | binary op left right ihLeft ihRight => simp only [substitute, value, ihLeft, ihRight]
  | paren inner ih | group inner ih => exact ih
  | qualified | other => rfl

/-- A name that is bound to the value of an expression may be replaced by the expression in
parentheses: the answer is the same, value or error, wherever the longer expression fits the
limit. -/
theorem eval_after_define (env : Environment) (x : String) (free : ¬ env.prelude.contains x)
    (noBool : ∀ b, x ≠ Value.boolText b) (e₁ e₂ : Expr) (v : Value) (limit max : Nat)
    (valued : (e₁.eval limit env).answer = .ok v)
    (fits : env.depth + (e₂.substitute x (.paren e₁)).height ≤ max) :
    (e₂.eval max (define x v env).env).answer =
      ((e₂.substitute x (.paren e₁)).eval max env).answer := by
  have sameDepth : (define x v env).env.depth = env.depth := by
    rw [define_env]
    split <;> rfl
  have lower := height_le_substitute e₂ x (.paren e₁)
  have value₁ : (Expr.paren e₁).value env = .ok v := ((eval_ok_iff limit e₁ env v).mp valued).2
  calc (e₂.eval max (define x v env).env).answer
      = e₂.value (define x v env).env := eval_of_fits max e₂ _ (by omega)
    _ = (e₂.substitute x (.paren e₁)).value env := value_after_define free noBool value₁ e₂
    _ = ((e₂.substitute x (.paren e₁)).eval max env).answer :=
        (eval_of_fits max _ env fits).symm

/-- `x` is bound anew to `x + y`, and `-x / (x - 3) < x` is the same as with `(x + y)` for each `x`,
where `x` has its old binding; at `y = 1` both divide by zero. -/
theorem eval_after_define_of_sum :
    let env : Environment := { bindings := [("x", .int 2), ("y", .int 1)], depth := 1 }
    let e₁ := binary (.plain .add) (name "x") (name "y")
    let e₂ := binary (.plain .lt) (binary (.plain .div) (unary .neg (name "x"))
      (paren (binary (.plain .sub) (name "x") (literal (.int "3"))))) (name "x")
    ¬ env.prelude.contains "x" ∧ (∀ b, "x" ≠ Value.boolText b) ∧
      (e₁.eval 9 env).answer = .ok (.int 3) ∧
      env.depth + (e₂.substitute "x" (.paren e₁)).height ≤ 8 ∧
      (e₂.eval 8 (define "x" (.int 3) env).env).answer = .error .divisionByZero ∧
      ((e₂.substitute "x" (.paren e₁)).eval 8 env).answer = .error .divisionByZero := by
  intro env e₁ e₂
  have free : ¬ env.prelude.contains "x" := by decide
  have noBool : ∀ b, "x" ≠ Value.boolText b := by decide
  have valued : (e₁.eval 9 env).answer = .ok (.int 3) := rfl
  have fits : env.depth + (e₂.substitute "x" (.paren e₁)).height ≤ 8 := by decide
  have same := eval_after_define env "x" free noBool e₁ e₂ (.int 3) 9 8 valued fits
  have fails : (e₂.eval 8 (define "x" (.int 3) env).env).answer = .error .divisionByZero := rfl
  exact ⟨free, noBool, valued, fits, fails, same.symm.trans fails⟩

end Expr

end GoDecl
