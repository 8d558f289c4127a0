import GoDecl.EvalError
import GoDecl.Token.Basic

/-! Initialiser expressions. Names, literals, operators and parentheses are kept as trees; of
every other shape only its tokens are kept. -/
namespace GoDecl

inductive Expr where
  | literal (l : Literal)
  | name (text : String)
  | qualified (segments : List String) (tokens : List Token)
  | unary (op : UnaryOp) (operand : Expr)
  | binary (op : BinaryOp) (left right : Expr)
  | paren (inner : Expr)
  /-- A group without brackets. No text shows one; trees that are put together may have it. -/
  | group (inner : Expr)
  | other (shape : Shape) (tokens : List Token)

namespace Expr

def tokens : Expr → List Token
  | .literal l => [.ofLiteral l]
  | .name text => [.word text {}]
  | .qualified _ tokens => tokens
  | .unary op operand => .punct op.symbol false {} :: operand.tokens
  | .binary op left right => left.tokens ++ Token.operator op.symbol ++ right.tokens
  | .paren inner => [.wrap .paren inner.tokens]
  | .group inner => inner.tokens
  | .other _ tokens => tokens

def text (e : Expr) : String := Token.textOf e.tokens

/-- Nesting as the evaluator counts it. Shapes without a value count as leaves. -/
def height : Expr → Nat
  | .literal _ | .name _ | .qualified .. | .other .. => 1
  | .unary _ operand => operand.height + 1
  | .binary _ left right => max left.height right.height + 1
  | .paren inner | .group inner => inner.height + 1

end Expr

end GoDecl
