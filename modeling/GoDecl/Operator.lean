/-! Operators of initialiser expressions. -/
namespace GoDecl

/-- The binary operators that have a meaning. -/
inductive Operator where
  | add | sub | mul | div | rem | lt | gt | le | ge
  deriving DecidableEq, Repr

def Operator.symbol : Operator → List Char
  | .add => ['+']
  | .sub => ['-']
  | .mul => ['*']
  | .div => ['/']
  | .rem => ['%']
  | .lt => ['<']
  | .gt => ['>']
  | .le => ['<', '=']
  | .ge => ['>', '=']

inductive UnaryOp where
  | neg | not | deref
  deriving DecidableEq, Repr

def UnaryOp.symbol : UnaryOp → Char
  | .neg => '-'
  | .not => '!'
  | .deref => '*'

/-- How tightly an expression holds together, loosest first. -/
inductive Precedence where
  | jump | assign | range | or | and | condition | compare | bitOr | bitXor | bitAnd | shift
  | sum | product | cast | unary | operand
  deriving DecidableEq, Repr

def Precedence.rank : Precedence → Nat
  | .jump => 0
  | .assign => 1
  | .range => 2
  | .or => 3
  | .and => 4
  | .condition => 5
  | .compare => 6
  | .bitOr => 7
  | .bitXor => 8
  | .bitAnd => 9
  | .shift => 10
  | .sum => 11
  | .product => 12
  | .cast => 13
  | .unary => 14
  | .operand => 15

/-- Every binary operator an expression may be written with. -/
inductive BinaryOp where
  | plain (op : Operator)
  | and | or | eq | ne
  | bitAnd | bitOr | bitXor | shl | shr
  | addAssign | subAssign | mulAssign | divAssign | remAssign
  | bitAndAssign | bitOrAssign | bitXorAssign | shlAssign | shrAssign
  deriving DecidableEq, Repr

namespace BinaryOp

def symbol : BinaryOp → List Char
  | .plain op => op.symbol
  | .and => ['&', '&']
  | .or => ['|', '|']
  | .eq => ['=', '=']
  | .ne => ['!', '=']
  | .bitAnd => ['&']
  | .bitOr => ['|']
  | .bitXor => ['^']
  | .shl => ['<', '<']
  | .shr => ['>', '>']
  | .addAssign => ['+', '=']
  | .subAssign => ['-', '=']
  | .mulAssign => ['*', '=']
  | .divAssign => ['/', '=']
  | .remAssign => ['%', '=']
  | .bitAndAssign => ['&', '=']
  | .bitOrAssign => ['|', '=']
  | .bitXorAssign => ['^', '=']
  | .shlAssign => ['<', '<', '=']
  | .shrAssign => ['>', '>', '=']

/-- The operators in the order in which they are looked for, longer symbols first. -/
def all : List BinaryOp :=
  [.addAssign, .subAssign, .mulAssign, .divAssign, .remAssign, .bitXorAssign, .bitAndAssign,
    .bitOrAssign, .shlAssign, .shrAssign, .and, .or, .shl, .shr, .eq, .plain .le, .ne, .plain .ge,
    .plain .add, .plain .sub, .plain .mul, .plain .div, .plain .rem, .bitXor, .bitAnd, .bitOr,
    .plain .lt, .plain .gt]

def precedence : BinaryOp → Precedence
  | .plain .add | .plain .sub => .sum
  | .plain .mul | .plain .div | .plain .rem => .product
  | .plain .lt | .plain .gt | .plain .le | .plain .ge | .eq | .ne => .compare
  | .and => .and
  | .or => .or
  | .bitAnd => .bitAnd
  | .bitOr => .bitOr
  | .bitXor => .bitXor
  | .shl | .shr => .shift
  | .addAssign | .subAssign | .mulAssign | .divAssign | .remAssign | .bitAndAssign
  | .bitOrAssign | .bitXorAssign | .shlAssign | .shrAssign => .assign

end BinaryOp

end GoDecl
