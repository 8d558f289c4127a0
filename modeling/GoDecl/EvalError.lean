import GoDecl.Operator
import GoDecl.Value
import GoDecl.Expr.Shape

/-! Why an expression has no value. -/
namespace GoDecl

inductive EvalError where
  | undefinedVariable (name : String)
  | invalidBinaryOperands (op : Operator) (left right : Kind)
  | invalidUnaryOperand (op : UnaryOp) (operand : Kind)
  | unsupportedOperator (symbol : List Char)
  | divisionByZero
  | malformedLiteral (kind : Kind) (text : String)
  | unsupportedLiteral (description : String)
  | unsupportedExpr (shape : Shape) (text : String)
  | qualifiedPath (segments : List String)
  | invalidCharacter (code : Int)
  | depthExceeded (max : Nat)
  | missingInitializer (name : String)
  deriving DecidableEq, Repr

namespace EvalError

def message : EvalError → String
  | .undefinedVariable name => "undefined variable `" ++ name ++ "`"
  | .invalidBinaryOperands op left right =>
    "invalid operands for `" ++ .ofList op.symbol ++ "`: " ++ left.name ++ " and " ++ right.name
  | .invalidUnaryOperand op operand =>
    "invalid operand for unary `" ++ .singleton op.symbol ++ "`: " ++ operand.name
  | .unsupportedOperator symbol => "unsupported operator `" ++ .ofList symbol ++ "`"
  | .divisionByZero => "division by zero"
  | .malformedLiteral kind text => "malformed " ++ kind.name ++ " literal `" ++ text ++ "`"
  | .unsupportedLiteral description => "unsupported literal: " ++ description
  | .unsupportedExpr shape text =>
    "unsupported expression: " ++ shape.label ++ " `" ++ text ++ "`"
  | .qualifiedPath segments =>
    "unsupported expression: qualified path `" ++ "::".intercalate segments ++ "`"
  | .invalidCharacter code =>
    "character arithmetic produced " ++ Value.intText code ++
      ", which is not a Unicode scalar value"
  | .depthExceeded max =>
    "expression nesting exceeds maximum depth of " ++ Value.intText max
  | .missingInitializer name => "no initializer for `" ++ name ++ "`"

end EvalError

end GoDecl
