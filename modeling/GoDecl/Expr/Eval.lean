import GoDecl.Arithmetic
import GoDecl.Environment.Basic
import GoDecl.Number.Decimal

/-! The value of an expression. Each node counts one level of nesting while it is evaluated, and the
count is back where it was afterwards, whatever the outcome. -/
namespace GoDecl

namespace Literal

open Text

def maxInt : Nat := Nat.pow 2 63 - 1

/-- Integers are plain decimal digits. -/
def intValue? (text : String) : Option Int64 :=
  let digits := text.toList
  let n := Decimal.ofDigits digits
  if digits.all isDigit && n ≤ maxInt then some (.ofNat n) else none

def exponent? (text : List Char) : Option Int :=
  let (sign, digits) : Int × List Char := match text with
    | '+' :: rest => (1, rest)
    | '-' :: rest => (-1, rest)
    | same => (1, same)
  if digits.isEmpty || !digits.all isDigit then none else some (sign * Decimal.ofDigits digits)

/-- A decimal as a number and the place of its last digit. -/
def decimal? (text : List Char) : Option (Nat × Int) :=
  let whole := text.takeWhile isDigit
  let rest := text.dropWhile isDigit
  let (fraction, rest) := match rest with
    | '.' :: more => (more.takeWhile isDigit, more.dropWhile isDigit)
    | same => ([], same)
  let n := Decimal.ofDigits (whole ++ fraction)
  let place : Int := -fraction.length
  if whole.isEmpty && fraction.isEmpty then none
  else
    match rest with
    | [] => some (n, place)
    | 'e' :: power | 'E' :: power => do some (n, place + (← exponent? power))
    | _ => none

/-- Floats are decimals that round to a finite number. -/
def floatValue? (text : String) : Option Single := do
  let (n, place) ← decimal? text.toList
  let x := Decimal.toSingle n place
  if x.isFinite then some x else none

/-- The booleans are names of the prelude like any other. -/
def eval (env : Environment) : Literal → Except EvalError Value
  | .int text =>
    match intValue? text with
    | some n => .ok (.int n)
    | none => .error (.malformedLiteral .int text)
  | .float text =>
    match floatValue? text with
    | some x => .ok (.float x)
    | none => .error (.malformedLiteral .float text)
  | .string _ value => .ok (.string value)
  | .rune _ value => .ok (.rune value)
  | .bool b => env.lookup (Value.boolText b)
  | .byteString _ => .error (.unsupportedLiteral "byte string literal")
  | .zeroEnded _ => .error (.unsupportedLiteral "C string literal")
  | .byte _ => .error (.unsupportedLiteral "byte literal")
  | .verbatim _ => .error (.unsupportedLiteral "verbatim literal")

end Literal

abbrev Evaluation := Action (Except EvalError Value)

namespace Evaluation

def reading (f : Environment → Except EvalError Value) : Evaluation := fun env =>
  { answer := f env, env }

def withValue (first : Evaluation) (next : Value → Evaluation) : Evaluation := do
  match ← first with
  | .ok v => next v
  | .error e => return .error e

def nested (max : Nat) (body : Evaluation) : Evaluation := fun env =>
  match env.enter max with
  | .error e => { answer := .error e, env }
  | .ok deeper =>
    let inner := body deeper
    { inner with env := inner.env.exit }

end Evaluation

open Evaluation in
/-- Operands come from left to right, and an operator is looked at only when both have values. -/
def Expr.eval (max : Nat) : Expr → Evaluation
  | .literal l => nested max (reading (l.eval ·))
  | .name text => nested max (reading (·.lookup text))
  | .qualified segments _ => nested max (reading fun _ => .error (.qualifiedPath segments))
  | .unary op operand =>
    nested max (withValue (operand.eval max) fun v => reading fun _ => op.apply v)
  | .binary op left right =>
    nested max
      (withValue (left.eval max) fun a =>
        withValue (right.eval max) fun b => reading fun _ => op.apply a b)
  | .paren inner | .group inner => nested max (inner.eval max)
  | .other shape tokens =>
    nested max (reading fun _ => .error (.unsupportedExpr shape (Token.textOf tokens)))

end GoDecl
