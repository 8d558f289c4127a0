import GoDecl.Proofs.Evaluation

/-! Kinds decide. Whether an expression has a value, of which kind it is and with which error it
fails follows from the kinds of the names in it; only a division by zero and a code point that is no
character depend on more. Two runs in tables that agree on kinds are compared step by step. -/
namespace GoDecl

/-- Errors that come from particular values and not from their kinds. -/
def EvalError.isOfValue : EvalError → Bool
  | .divisionByZero | .invalidCharacter _ => true
  | _ => false

theorem EvalError.isOfValue_cases {e : EvalError} (ofValue : e.isOfValue) :
    e = .divisionByZero ∨ ∃ code, e = .invalidCharacter code := by
  cases e with
  | divisionByZero => exact .inl rfl
  | invalidCharacter code => exact .inr ⟨code, rfl⟩
  | _ => contradiction

/-- Two answers that differ at most within a kind, unless one of them is an error of its values. -/
inductive AlikeInKind : Except EvalError Value → Except EvalError Value → Prop where
  | first {e : EvalError} {other : Except EvalError Value} (ofValue : e.isOfValue) :
      AlikeInKind (.error e) other
  | second {one : Except EvalError Value} {e : EvalError} (ofValue : e.isOfValue) :
      AlikeInKind one (.error e)
  | error (e : EvalError) : AlikeInKind (.error e) (.error e)
  | ok {v w : Value} (same : v.kind = w.kind) : AlikeInKind (.ok v) (.ok w)

/-- Values of one kind. Each is compared with the kind, since to compare them with one another would
set their arithmetic against each other. -/
theorem AlikeInKind.ofKind {v w : Value} (kind : Kind) (one : v.kind = kind)
    (other : w.kind = kind) : AlikeInKind (.ok v) (.ok w) := .ok (one.trans other.symm)

/-- An error of values stays, so the runs are followed only from values of one kind. -/
theorem AlikeInKind.bind {one other : Except EvalError Value}
    {next next' : Value → Except EvalError Value} (alike : AlikeInKind one other)
    (later : ∀ v w, v.kind = w.kind → AlikeInKind (next v) (next' w)) :
    AlikeInKind (one >>= next) (other >>= next') := by
  cases alike with
  | first ofValue => exact .first ofValue
  | second ofValue => exact .second ofValue
  | error e => exact .error e
  | ok same => exact later _ _ same

/-- Two values of one kind, kind by kind. -/
inductive SameKind : Value → Value → Prop where
  | int (a b : Int64) : SameKind (.int a) (.int b)
  | float (a b : Single) : SameKind (.float a) (.float b)
  | string (a b : String) : SameKind (.string a) (.string b)
  | rune (a b : Char) : SameKind (.rune a) (.rune b)
  | bool (a b : Bool) : SameKind (.bool a) (.bool b)

theorem SameKind.of_kind {v w : Value} (same : v.kind = w.kind) : SameKind v w := by
  cases v <;> cases w <;> first | contradiction | constructor

namespace Operator

theorem holds_alike (op : Operator) (o o' : Option Ordering) :
    AlikeInKind (.ok (op.holds o)) (.ok (op.holds o')) := .ofKind .bool rfl rfl

/-- A code point is a rune or an error of its value. -/
theorem runeOf_alike (code code' : Int) : AlikeInKind (runeOf code) (runeOf code') := by
  have cases (code : Int) :
      (∃ c, runeOf code = .ok (.rune c)) ∨ runeOf code = .error (.invalidCharacter code) := by
    unfold runeOf
    split
    · exact .inr rfl
    · split
      · exact .inl ⟨_, rfl⟩
      · exact .inr rfl
  rcases cases code with ⟨c, rune⟩ | invalid
  · rcases cases code' with ⟨c', rune'⟩ | invalid'
    · rw [rune, rune']
      exact .ofKind .rune rfl rfl
    · rw [invalid']
      exact .second rfl
  · rw [invalid]
    exact .first rfl

/-- A division where either divisor may be zero. -/
theorem divided_alike {zero zero' : Prop} [Decidable zero] [Decidable zero']
    {one other : Except EvalError Value} (alike : AlikeInKind one other) :
    AlikeInKind (if zero then .error .divisionByZero else one)
      (if zero' then .error .divisionByZero else other) := by
  by_cases isZero : zero
  · rw [if_pos isZero]
    exact .first rfl
  · by_cases isZero' : zero'
    · rw [if_pos isZero']
      exact .second rfl
    · rw [if_neg isZero, if_neg isZero']
      exact alike

theorem applyInt_alike (op : Operator) (a a' b b' : Int64) :
    AlikeInKind (op.applyInt a b) (op.applyInt a' b') := by
  unfold applyInt
  cases op with
  | add | sub | mul => exact .ofKind .int rfl rfl
  | div | rem => exact divided_alike (.ofKind .int rfl rfl)
  | lt | gt | le | ge => exact holds_alike ..

theorem applyFloat_alike (op : Operator) (a a' b b' : Single) :
    AlikeInKind (op.applyFloat a b) (op.applyFloat a' b') := by
  unfold applyFloat
  cases op with
  | add | sub | mul => exact .ofKind .float rfl rfl
  | div => exact divided_alike (.ofKind .float rfl rfl)
  | rem => exact .error _
  | lt | gt | le | ge => exact holds_alike ..

theorem applyString_alike (op : Operator) (a a' b b' : String) :
    AlikeInKind (op.applyString a b) (op.applyString a' b') := by
  unfold applyString
  cases op with
  | add => exact .ofKind .string rfl rfl
  | sub | mul | div | rem => exact .error _
  | lt | gt | le | ge => exact holds_alike ..

theorem applyRune_alike (op : Operator) (a a' b b' : Char) :
    AlikeInKind (op.applyRune a b) (op.applyRune a' b') := by
  unfold applyRune
  cases op with
  | add | sub | mul => exact runeOf_alike ..
  | div | rem => exact divided_alike (runeOf_alike ..)
  | lt | gt | le | ge => exact holds_alike ..

/-- Each pair of kinds has one table, and no table looks at more than it must. -/
theorem apply_alike (op : Operator) {a a' b b' : Value} (left : SameKind a a')
    (right : SameKind b b') : AlikeInKind (op.apply a b) (op.apply a' b') := by
  unfold apply
  cases left with
  | int =>
    cases right with
    | int => exact applyInt_alike ..
    | float => exact applyFloat_alike ..
    | string | rune | bool => exact .error _
  | float =>
    cases right with
    | int | float => exact applyFloat_alike ..
    | string | rune | bool => exact .error _
  | string =>
    cases right with
    | string => exact applyString_alike ..
    | int | float | rune | bool => exact .error _
  | rune =>
    cases right with
    | rune => exact applyRune_alike ..
    | int | float | string | bool => exact .error _
  | bool =>
    cases right with
    | int | float | string | rune | bool => exact .error _

theorem runeOf_supported (code : Int) (symbol : List Char) :
    runeOf code ≠ .error (.unsupportedOperator symbol) := by
  grind [runeOf]

/-- Operators with a meaning are never called unsupported. -/
theorem apply_supported (op : Operator) (a b : Value) (symbol : List Char) :
    op.apply a b ≠ .error (.unsupportedOperator symbol) := by
  have rune (code : Int) := runeOf_supported code symbol
  unfold apply
  split
  · cases op <;> grind [applyInt]
  · cases op <;> grind [applyFloat]
  · cases op <;> grind [applyFloat]
  · cases op <;> grind [applyFloat]
  · intro same
    cases op <;> cases same
  · cases op <;> grind [applyRune]
  · simp

end Operator

theorem UnaryOp.apply_alike (op : UnaryOp) {v w : Value} (same : SameKind v w) :
    AlikeInKind (op.apply v) (op.apply w) := by
  cases op with
  | deref => exact .error _
  | neg =>
    cases same with
    | int => exact .ofKind .int rfl rfl
    | float | string | rune | bool => exact .error _
  | not =>
    cases same with
    | bool => exact .ofKind .bool rfl rfl
    | int | float | string | rune => exact .error _

theorem BinaryOp.apply_alike (op : BinaryOp) {a a' b b' : Value} (left : SameKind a a')
    (right : SameKind b b') : AlikeInKind (op.apply a b) (op.apply a' b') := by
  cases op with
  | plain op => exact op.apply_alike left right
  | _ => exact .error _

/-- Tables in which each name is unbound in both or bound to values of one kind. -/
def Environment.AgreesInKind (one other : Environment) : Prop :=
  ∀ name, (one.get? name).map Value.kind = (other.get? name).map Value.kind

namespace Environment.AgreesInKind

variable {one other : Environment} (agree : one.AgreesInKind other)

include agree

theorem deeper : one.deeper.AgreesInKind other.deeper := agree

theorem lookup (name : String) : AlikeInKind (one.lookup name) (other.lookup name) := by
  have same := agree name
  unfold Environment.lookup
  cases bound : one.get? name with
  | none =>
    cases bound' : other.get? name with
    | none => exact .error _
    | some w => simp [bound, bound'] at same
  | some v =>
    cases bound' : other.get? name with
    | none => simp [bound, bound'] at same
    | some w => exact .ok (by simpa [bound, bound'] using same)

/-- A literal other than a boolean says its own value or error in every table. -/
theorem literal (l : Literal) : AlikeInKind (l.eval one) (l.eval other) := by
  cases l with
  | int text =>
    simp only [Literal.eval]
    split
    · exact .ok rfl
    · exact .error _
  | float text =>
    simp only [Literal.eval]
    split
    · exact .ok rfl
    · exact .error _
  | string | rune => exact .ok rfl
  | bool b => exact agree.lookup _
  | byteString | zeroEnded | byte | verbatim => exact .error _

end Environment.AgreesInKind

namespace Expr

/-- The two runs are at the same depth throughout, so they meet the limit together. -/
theorem eval_alike (max : Nat) (e : Expr) (one other : Environment)
    (level : one.depth = other.depth) (agree : one.AgreesInKind other) :
    AlikeInKind (e.eval max one).answer (e.eval max other).answer := by
  induction e generalizing one other with
  | literal l =>
    rw [eval_leaf _ _ _ rfl, eval_leaf _ _ _ rfl, level]
    split
    · exact agree.literal l
    · exact .error _
  | name text =>
    rw [eval_leaf _ _ _ rfl, eval_leaf _ _ _ rfl, level]
    split
    · exact agree.lookup text
    · exact .error _
  | qualified | other =>
    rw [eval_leaf _ _ _ rfl, eval_leaf _ _ _ rfl, level]
    split <;> exact .error _
  | unary op operand ih =>
    rw [eval_unary, eval_unary, level]
    split
    · have operands := ih one.deeper other.deeper (congrArg (· + 1) level) agree.deeper
      exact operands.bind fun v w same => op.apply_alike (.of_kind same)
    · exact .error _
  | binary op left right ihLeft ihRight =>
    rw [eval_binary, eval_binary, level]
    split
    · have lefts := ihLeft one.deeper other.deeper (congrArg (· + 1) level) agree.deeper
      have rights := ihRight one.deeper other.deeper (congrArg (· + 1) level) agree.deeper
      exact lefts.bind fun a a' left => rights.bind fun b b' right =>
        op.apply_alike (.of_kind left) (.of_kind right)
    · exact .error _
  | paren inner ih | group inner ih =>
    simp only [eval_paren, eval_group]
    rw [level]
    split
    · exact ih one.deeper other.deeper (congrArg (· + 1) level) agree.deeper
    · exact .error _

/-- Two runs of an expression in tables of one depth that agree in kind: both have values of one
kind, or both have the same error, or one of them is a division by zero or a code point that is no
character. So an expression that has a value fails on other values of the same kinds only in those
two ways, and of the operators with a meaning none is ever called unsupported. -/
theorem eval_follows_kinds (max : Nat) (e : Expr) (one other : Environment)
    (level : one.depth = other.depth) (agree : one.AgreesInKind other) :
    let first := (e.eval max one).answer
    let second := (e.eval max other).answer
    ((∀ err, first = .error err → ¬ err.isOfValue) →
      (∀ err, second = .error err → ¬ err.isOfValue) →
      (∃ v w, first = .ok v ∧ second = .ok w ∧ v.kind = w.kind) ∨
        ∃ err, first = .error err ∧ second = .error err) ∧
    (∀ v err, first = .ok v → second = .error err →
      err = .divisionByZero ∨ ∃ code, err = .invalidCharacter code) ∧
    ∀ (op : Operator) (a b : Value) (symbol : List Char),
      op.apply a b ≠ .error (.unsupportedOperator symbol) := by
  intro first second
  have alike : AlikeInKind first second := eval_alike max e one other level agree
  clear_value first second
  refine ⟨?_, ?_, Operator.apply_supported⟩
  · intro general general'
    cases alike with
    | first ofValue => exact absurd ofValue (general _ rfl)
    | second ofValue => exact absurd ofValue (general' _ rfl)
    | error err => exact .inr ⟨err, rfl, rfl⟩
    | ok same => exact .inl ⟨_, _, rfl, rfl, same⟩
  · rintro v err rfl rfl
    cases alike with
    | second ofValue => exact EvalError.isOfValue_cases ofValue

/-- `a / b < c` with two integers and a float: with divisors other than zero it is a boolean,
whatever the numbers are, and with zero it is the division that fails. -/
theorem eval_follows_kinds_of_quotient :
    let e := binary (.plain .lt) (binary (.plain .div) (name "a") (name "b")) (name "c")
    let env (b : Int64) (c : Single) : Environment :=
      { bindings := [("a", .int 7), ("b", .int b), ("c", .float c)], depth := 2 }
    let one := env 2 (.ofInt 4)
    let other := env (-3) (.ofInt 0)
    let third := env 0 (.ofInt 4)
    (one.depth = other.depth ∧ one.AgreesInKind other ∧
      ∃ v w, (e.eval 9 one).answer = .ok v ∧ (e.eval 9 other).answer = .ok w ∧ v.kind = w.kind) ∧
    one.depth = third.depth ∧ one.AgreesInKind third ∧
      ∃ err, (e.eval 9 third).answer = .error err ∧
        (err = .divisionByZero ∨ ∃ code, err = .invalidCharacter code) := by
  intro e env one other third
  have agree (b b' : Int64) (c c' : Single) : (env b c).AgreesInKind (env b' c') := by
    intro name
    simp only [env, Environment.get?, Bindings.get?]
    grind [Value.kind]
  have value : (e.eval 9 one).answer = .ok (.bool true) := rfl
  have value' : (e.eval 9 other).answer = .ok (.bool true) := rfl
  have fails : (e.eval 9 third).answer = .error .divisionByZero := rfl
  have both := (eval_follows_kinds 9 e one other rfl (agree _ _ _ _)).1
    (by simp [value]) (by simp [value'])
  have only := (eval_follows_kinds 9 e one third rfl (agree _ _ _ _)).2.1 _ _ value fails
  refine ⟨⟨rfl, agree _ _ _ _, ?_⟩, rfl, agree _ _ _ _, _, fails, only⟩
  rcases both with values | ⟨err, error, -⟩
  · exact values
  · simp [value] at error

end Expr

end GoDecl
