import GoDecl.Expr.Eval

/-! Evaluation without and with a limit on nesting. Evaluating an expression leaves the table as it
was, so its answer is a function of the table alone; the limit then only decides whether that
function is reached. -/
namespace GoDecl

/-- The value of an expression when nesting is not counted. Groups of both sorts are transparent. -/
def Expr.value (env : Environment) : Expr → Except EvalError Value
  | .literal l => l.eval env
  | .name text => env.lookup text
  | .qualified segments _ => .error (.qualifiedPath segments)
  | .unary op operand => do op.apply (← operand.value env)
  | .binary op left right => do
    let a ← left.value env
    let b ← right.value env
    op.apply a b
  | .paren inner | .group inner => inner.value env
  | .other shape tokens => .error (.unsupportedExpr shape (Token.textOf tokens))

/-- What a chain that ends well went through. -/
theorem bind_eq_ok {ε α β : Type} {x : Except ε α} {f : α → Except ε β} {b : β} :
    x >>= f = .ok b ↔ ∃ a, x = .ok a ∧ f a = .ok b := by
  cases x <;> simp [bind, Except.bind]

/-- The table one level deeper. -/
def Environment.deeper (env : Environment) : Environment := { env with depth := env.depth + 1 }

@[simp] theorem Environment.deeper_depth (env : Environment) :
    env.deeper.depth = env.depth + 1 := rfl

@[simp] theorem Environment.exit_deeper (env : Environment) : env.deeper.exit = env := rfl

theorem Environment.enter_of_lt (env : Environment) (max : Nat) (room : env.depth < max) :
    env.enter max = .ok env.deeper := by
  simp [enter, deeper, room]

theorem Environment.enter_of_le (env : Environment) (max : Nat) (full : max ≤ env.depth) :
    env.enter max = .error (.depthExceeded max) := by
  simp [enter, full]

namespace Evaluation

/-- An evaluation that leaves the table as it found it, at every table and with every answer. -/
def Reads (action : Evaluation) : Prop := ∀ env, (action env).env = env ∧ (action env).events = []

theorem reads_reading (f : Environment → Except EvalError Value) : Reads (reading f) :=
  fun _ => ⟨rfl, rfl⟩

theorem reads_withValue (first : Evaluation) (next : Value → Evaluation) (reads : Reads first)
    (readsNext : ∀ v, Reads (next v)) : Reads (withValue first next) := by
  intro env
  obtain ⟨same, silent⟩ := reads env
  cases answer : (first env).answer with
  | ok v =>
    simp [withValue, bind, Action.andThen, answer, same, silent, (readsNext v env).1,
      (readsNext v env).2]
  | error e => simp [withValue, bind, Action.andThen, pure, Action.answer, answer, same, silent]

theorem withValue_answer (first : Evaluation) (next : Value → Evaluation) (env : Environment)
    (reads : Reads first) :
    (withValue first next env).answer = (first env).answer >>= fun v => (next v env).answer := by
  cases answer : (first env).answer <;>
    simp [withValue, bind, Except.bind, Action.andThen, pure, Action.answer, answer, (reads env).1]

/-- A body that only reads runs one level deeper, if there is room for a level. -/
theorem nested_apply (max : Nat) (body : Evaluation) (env : Environment) (reads : Reads body) :
    nested max body env =
      if env.depth < max then { answer := (body env.deeper).answer, env }
      else { answer := .error (.depthExceeded max), env } := by
  obtain ⟨same, silent⟩ := reads env.deeper
  unfold nested
  by_cases room : env.depth < max
  · simp [env.enter_of_lt max room, room, same, silent]
  · simp [env.enter_of_le max (Nat.le_of_not_lt room), room]

theorem reads_nested (max : Nat) (body : Evaluation) (reads : Reads body) :
    Reads (nested max body) := by
  intro env
  rw [nested_apply max body env reads]
  split <;> exact ⟨rfl, rfl⟩

end Evaluation

open Evaluation

namespace Expr

/-- No shape of expression, at no depth and with no outcome, leaves a trace in the table. -/
theorem eval_reads (max : Nat) (e : Expr) : Reads (e.eval max) := by
  induction e with
  | literal l => exact reads_nested max _ (reads_reading _)
  | name text => exact reads_nested max _ (reads_reading _)
  | qualified segments tokens => exact reads_nested max _ (reads_reading _)
  | unary op operand ih =>
    exact reads_nested max _ (reads_withValue _ _ ih fun v => reads_reading _)
  | binary op left right ihLeft ihRight =>
    exact reads_nested max _
      (reads_withValue _ _ ihLeft fun a => reads_withValue _ _ ihRight fun b => reads_reading _)
  | paren inner ih | group inner ih => exact reads_nested max _ ih
  | other shape tokens => exact reads_nested max _ (reads_reading _)

theorem height_pos (e : Expr) : 0 < e.height := by
  cases e <;> simp [height]

@[simp] theorem value_deeper (e : Expr) (env : Environment) : e.value env.deeper = e.value env := by
  induction e with
  | literal l => cases l <;> rfl
  | unary op operand ih => simp only [value, ih]
  | binary op left right ihLeft ihRight => simp only [value, ihLeft, ihRight]
  | paren inner ih | group inner ih => simp only [value, ih]
  | name | qualified | other => rfl

theorem eval_leaf (max : Nat) (e : Expr) (env : Environment) (leaf : e.height = 1) :
    (e.eval max env).answer =
      if env.depth < max then e.value env else .error (.depthExceeded max) := by
  rw [← value_deeper e env]
  cases e with
  | literal | name | qualified | other =>
    simp only [eval]
    rw [nested_apply _ _ _ (reads_reading _)]
    split <;> rfl
  | unary op operand => simp [height, Nat.ne_of_gt operand.height_pos] at leaf
  | binary op left right =>
    have := left.height_pos
    simp only [height] at leaf
    omega
  | paren inner | group inner => simp [height, Nat.ne_of_gt inner.height_pos] at leaf

theorem eval_unary (max : Nat) (op : UnaryOp) (operand : Expr) (env : Environment) :
    ((unary op operand).eval max env).answer =
      if env.depth < max then (operand.eval max env.deeper).answer >>= op.apply
      else .error (.depthExceeded max) := by
  have reads := eval_reads max operand
  rw [eval, nested_apply _ _ _ (reads_withValue _ _ reads fun _ => reads_reading _)]
  split
  · exact withValue_answer _ _ _ reads
  · rfl

theorem eval_binary (max : Nat) (op : BinaryOp) (left right : Expr) (env : Environment) :
    ((binary op left right).eval max env).answer =
      if env.depth < max then do
        let a ← (left.eval max env.deeper).answer
        let b ← (right.eval max env.deeper).answer
        op.apply a b
      else .error (.depthExceeded max) := by
  have readsLeft := eval_reads max left
  have readsRight := eval_reads max right
  have readsRest (a : Value) :
      Reads (withValue (right.eval max) fun b => reading fun _ => op.apply a b) :=
    reads_withValue _ _ readsRight fun _ => reads_reading _
  rw [eval, nested_apply _ _ _ (reads_withValue _ _ readsLeft readsRest)]
  split
  · simp only [withValue_answer _ _ _ readsLeft, withValue_answer _ _ _ readsRight]
    rfl
  · rfl

theorem eval_paren (max : Nat) (inner : Expr) (env : Environment) :
    ((paren inner).eval max env).answer =
      if env.depth < max then (inner.eval max env.deeper).answer
      else .error (.depthExceeded max) := by
  rw [eval, nested_apply _ _ _ (eval_reads max inner)]
  split <;> rfl

theorem eval_group (max : Nat) (inner : Expr) (env : Environment) :
    ((group inner).eval max env).answer = ((paren inner).eval max env).answer := rfl

/-- Where the height fits, the limit is never met. -/
theorem eval_of_fits (max : Nat) (e : Expr) (env : Environment)
    (fits : env.depth + e.height ≤ max) : (e.eval max env).answer = e.value env := by
  induction e generalizing env with
  | literal | name | qualified | other =>
    simp only [height] at fits
    rw [eval_leaf _ _ _ rfl, if_pos (by omega)]
  | unary op operand ih =>
    simp only [height] at fits
    have deeper := ih env.deeper (by simp; omega)
    rw [eval_unary, if_pos (by omega), deeper, value_deeper]
    rfl
  | binary op left right ihLeft ihRight =>
    simp only [height] at fits
    have deeperLeft := ihLeft env.deeper (by simp; omega)
    have deeperRight := ihRight env.deeper (by simp; omega)
    rw [eval_binary, if_pos (by omega), deeperLeft, deeperRight, value_deeper, value_deeper]
    rfl
  | paren inner ih | group inner ih =>
    simp only [height] at fits
    have deeper := ih env.deeper (by simp; omega)
    simp only [eval_paren, eval_group]
    rw [if_pos (by omega), deeper, value_deeper]
    rfl

/-- Where the height does not fit, an expression that has a value meets the limit: its parts have
values too, so no other error comes first. -/
theorem eval_of_not_fits (max : Nat) (e : Expr) (env : Environment) (v : Value)
    (tooHigh : max < env.depth + e.height) (hasValue : e.value env = .ok v) :
    (e.eval max env).answer = .error (.depthExceeded max) := by
  induction e generalizing env v with
  | literal | name | qualified | other =>
    simp only [height] at tooHigh
    rw [eval_leaf _ _ _ rfl, if_neg (by omega)]
  | unary op operand ih =>
    simp only [height] at tooHigh
    obtain ⟨a, valueOperand, _⟩ := bind_eq_ok.mp hasValue
    rw [eval_unary, ih env.deeper a (by simp; omega) (by rwa [value_deeper])]
    split <;> rfl
  | binary op left right ihLeft ihRight =>
    simp only [height] at tooHigh
    obtain ⟨a, valueLeft, rest⟩ := bind_eq_ok.mp hasValue
    obtain ⟨b, valueRight, _⟩ := bind_eq_ok.mp rest
    rw [eval_binary]
    by_cases fitsLeft : env.deeper.depth + left.height ≤ max
    · -- The left side answers, so it is the right side that is too high.
      have tooHighRight : max < env.deeper.depth + right.height := by
        simp only [Environment.deeper_depth] at *
        omega
      rw [eval_of_fits max left _ fitsLeft, value_deeper, valueLeft,
        ihRight env.deeper b tooHighRight (by rwa [value_deeper])]
      split <;> rfl
    · rw [ihLeft env.deeper a (by omega) (by rwa [value_deeper])]
      split <;> rfl
  | paren inner ih | group inner ih =>
    simp only [height] at tooHigh
    simp only [eval_paren, eval_group]
    rw [ih env.deeper v (by simp; omega) (by rwa [value_deeper])]
    split <;> rfl

/-- A value comes only from within the limit. -/
theorem fits_of_eval_ok (max : Nat) (e : Expr) (env : Environment) (v : Value)
    (answer : (e.eval max env).answer = .ok v) : env.depth + e.height ≤ max := by
  induction e generalizing env v with
  | literal | name | qualified | other =>
    rw [eval_leaf _ _ _ rfl] at answer
    split at answer
    · simp only [height]; omega
    · contradiction
  | unary op operand ih =>
    rw [eval_unary] at answer
    split at answer
    · obtain ⟨a, answerOperand, _⟩ := bind_eq_ok.mp answer
      have fits := ih env.deeper a answerOperand
      simp only [Environment.deeper_depth, height] at *
      omega
    · contradiction
  | binary op left right ihLeft ihRight =>
    rw [eval_binary] at answer
    split at answer
    · obtain ⟨a, answerLeft, rest⟩ := bind_eq_ok.mp answer
      obtain ⟨b, answerRight, _⟩ := bind_eq_ok.mp rest
      have fitsLeft := ihLeft env.deeper a answerLeft
      have fitsRight := ihRight env.deeper b answerRight
      simp only [Environment.deeper_depth, height] at *
      omega
    · contradiction
  | paren inner ih | group inner ih =>
    simp only [eval_paren, eval_group] at answer
    split at answer
    · have fits := ih env.deeper v answer
      simp only [Environment.deeper_depth, height] at *
      omega
    · contradiction

theorem eval_ok_iff (max : Nat) (e : Expr) (env : Environment) (v : Value) :
    (e.eval max env).answer = .ok v ↔ env.depth + e.height ≤ max ∧ e.value env = .ok v := by
  constructor
  · intro answer
    have fits := fits_of_eval_ok max e env v answer
    exact ⟨fits, eval_of_fits max e env fits ▸ answer⟩
  · rintro ⟨fits, hasValue⟩
    rw [eval_of_fits max e env fits, hasValue]

/-- The limited evaluator is the unlimited one cut off at the limit: it has the same values where
the height fits and none elsewhere, the same errors where the height fits, and it complains of the
limit where only the height is at fault. A higher limit changes no value. -/
theorem eval_cuts_value_at_height (max : Nat) (e : Expr) (env : Environment) :
    (∀ v, (e.eval max env).answer = .ok v ↔ env.depth + e.height ≤ max ∧ e.value env = .ok v) ∧
    (env.depth + e.height ≤ max → (e.eval max env).answer = e.value env) ∧
    (¬ env.depth + e.height ≤ max → ∀ v, e.value env = .ok v →
      (e.eval max env).answer = .error (.depthExceeded max)) ∧
    (∀ higher v, max ≤ higher → (e.eval max env).answer = .ok v →
      (e.eval higher env).answer = .ok v) := by
  refine ⟨eval_ok_iff max e env, eval_of_fits max e env, ?_, ?_⟩
  · intro tooHigh v hasValue
    exact eval_of_not_fits max e env v (by omega) hasValue
  · intro higher v le answer
    obtain ⟨fits, hasValue⟩ := (eval_ok_iff max e env v).mp answer
    exact (eval_ok_iff higher e env v).mpr ⟨by omega, hasValue⟩

/-- `!(a < b)` in a table that is one level deep: with five levels it has its value, with four it
meets the limit. -/
theorem eval_cuts_value_at_limit :
    let e := unary .not (paren (binary (.plain .lt) (name "a") (name "b")))
    let env : Environment := { bindings := [("a", .int 1), ("b", .int 2)], depth := 1 }
    (env.depth + e.height ≤ 5 ∧ (e.eval 5 env).answer = e.value env) ∧
    (¬ env.depth + e.height ≤ 4 ∧ e.value env = .ok (.bool false) ∧
      (e.eval 4 env).answer = .error (.depthExceeded 4)) := by
  intro e env
  have fits := (eval_cuts_value_at_height 5 e env).2.1 (by decide)
  have hasValue : e.value env = .ok (.bool false) := rfl
  have cut := (eval_cuts_value_at_height 4 e env).2.2.1 (by decide) _ hasValue
  exact ⟨⟨by decide, fits⟩, by decide, hasValue, cut⟩

end Expr

end GoDecl
