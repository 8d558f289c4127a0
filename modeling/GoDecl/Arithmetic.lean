import GoDecl.EvalError

/-! What the operators do to values. Two values of one kind meet in that kind's table, an
integer beside a float becomes a float, and every other pairing is refused. -/
namespace GoDecl

namespace Operator

def accepts : Operator → Ordering → Bool
  | .lt, o => o = .lt
  | .gt, o => o = .gt
  | .le, o => o ≠ .gt
  | .ge, o => o ≠ .lt
  | _, _ => false

/-- Unordered operands satisfy no comparison. -/
def holds (op : Operator) (o : Option Ordering) : Value :=
  .bool (match o with
    | some o => op.accepts o
    | none => false)

def applyInt (op : Operator) (a b : Int64) : Except EvalError Value :=
  match op with
  | .add => .ok (.int (a + b))
  | .sub => .ok (.int (a - b))
  | .mul => .ok (.int (a * b))
  | .div => if b = 0 then .error .divisionByZero else .ok (.int (a / b))
  | .rem => if b = 0 then .error .divisionByZero else .ok (.int (a % b))
  | .lt | .gt | .le | .ge => .ok (op.holds (some (compare a.toInt b.toInt)))

def applyFloat (op : Operator) (a b : Single) : Except EvalError Value :=
  match op with
  | .add => .ok (.float (a.add b))
  | .sub => .ok (.float (a.sub b))
  | .mul => .ok (.float (a.mul b))
  | .div => if b.isZero then .error .divisionByZero else .ok (.float (a.div b))
  | .rem => .error (.invalidBinaryOperands .rem .float .float)
  | .lt | .gt | .le | .ge => .ok (op.holds (a.compare? b))

def applyString (op : Operator) (a b : String) : Except EvalError Value :=
  match op with
  | .add => .ok (.string (a ++ b))
  | .sub | .mul | .div | .rem => .error (.invalidBinaryOperands op .string .string)
  | .lt | .gt | .le | .ge => .ok (op.holds (some (compareOfLessAndEq a b)))

def runeOf (code : Int) : Except EvalError Value :=
  if code < 0 then .error (.invalidCharacter code)
  else
    match Text.scalar? code.toNat with
    | some c => .ok (.rune c)
    | none => .error (.invalidCharacter code)

def wrap32 (n : Int) : Int := n.bmod (Nat.pow 2 32)

/-- Arithmetic on code points wraps at 32 bits before the result is taken as a code point. -/
def applyRune (op : Operator) (a b : Char) : Except EvalError Value :=
  let x : Int := a.toNat
  let y : Int := b.toNat
  match op with
  | .add => runeOf (wrap32 (x + y))
  | .sub => runeOf (wrap32 (x - y))
  | .mul => runeOf (wrap32 (x * y))
  | .div => if y = 0 then .error .divisionByZero else runeOf (x.tdiv y)
  | .rem => if y = 0 then .error .divisionByZero else runeOf (x.tmod y)
  | .lt | .gt | .le | .ge => .ok (op.holds (some (compare a.toNat b.toNat)))

def apply (op : Operator) (left right : Value) : Except EvalError Value :=
  match left, right with
  | .int a, .int b => op.applyInt a b
  | .int a, .float b => op.applyFloat (.ofInt a.toInt) b
  | .float a, .int b => op.applyFloat a (.ofInt b.toInt)
  | .float a, .float b => op.applyFloat a b
  | .string a, .string b => op.applyString a b
  | .rune a, .rune b => op.applyRune a b
  | left, right => .error (.invalidBinaryOperands op left.kind right.kind)

end Operator

/-- Only integers have a negative, only booleans a complement. -/
def UnaryOp.apply : UnaryOp → Value → Except EvalError Value
  | .neg, .int n => .ok (.int (-n))
  | .not, .bool b => .ok (.bool !b)
  | .deref, _ => .error (.unsupportedOperator [UnaryOp.symbol .deref])
  | op, v => .error (.invalidUnaryOperand op v.kind)

/-- Operators without a meaning refuse whatever their operands are. -/
def BinaryOp.apply : BinaryOp → Value → Value → Except EvalError Value
  | .plain op, left, right => op.apply left right
  | op, _, _ => .error (.unsupportedOperator op.symbol)

end GoDecl
