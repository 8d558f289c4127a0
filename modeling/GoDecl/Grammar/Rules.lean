import GoDecl.Grammar.Layout
import GoDecl.Grammar.Parser

/-! The grammar as a record of its rules. A rule refers to the others through the record and never
to itself; the knot is tied elsewhere, by a bound on how often a rule may call another. -/
namespace GoDecl.Grammar

inductive BoundSort where
  | trait | lifetime | capture | raw
  deriving DecidableEq, Repr

structure BoundRead where
  tokens : Tokens
  inner : Tokens := tokens
  sort : BoundSort := .trait
  bareTail : Bool := false

inductive TypeForm where
  | path (single : Bool)
  | lone (bound : BoundRead)
  | other

/-- A type that was read. `bareTail` says that it ends with a name that could take arguments. -/
structure TypeRead where
  tokens : Tokens
  form : TypeForm := .other
  bareTail : Bool := false

inductive PatternForm where
  | rest
  /-- A range; `missing` is the place of its dots if one of its ends is missing. -/
  | range (missing : Option Position)
  | constBlock
  | raw
  | other

structure PatternRead where
  tokens : Tokens
  form : PatternForm := .other

/-- The argument `structs` of the expression rules says whether braces behind a path belong to it:
they do not in the head of a loop or condition. -/
structure Rules where
  expr : (structs : Bool) → Parser Tree
  unary : (structs : Bool) → Parser Tree
  operators : Tree → (structs : Bool) → Precedence → Parser Tree
  operand : (structs : Bool) → Precedence → Parser Tree
  operandTail : Tree → (structs : Bool) → Precedence → Parser Tree
  type : (plus : Bool) → Parser TypeRead
  bound : (captures constants : Bool) → Parser BoundRead
  pattern : Parser PatternRead
  statementExpr : Parser Tree
  statements : Parser Tokens
  item : (start attributes : Tokens) → Parser Tokens
  useTree : (rooted : Bool) → Parser (Option Tokens)

def Rules.none : Rules where
  expr _ := throw .exhausted
  unary _ := throw .exhausted
  operators _ _ _ := throw .exhausted
  operand _ _ := throw .exhausted
  operandTail _ _ _ := throw .exhausted
  type _ := throw .exhausted
  bound _ _ := throw .exhausted
  pattern := throw .exhausted
  statementExpr := throw .exhausted
  statements := throw .exhausted
  item _ _ := throw .exhausted
  useTree _ := throw .exhausted

def Rules.value (r : Rules) : Parser Tokens := return (← r.expr true).tokens

def Rules.typeTokens (r : Rules) : Parser Tokens := return (← r.type true).tokens

def literalTokens : Parser Tokens := do
  match ← token with
  | .punct c _ p => return [.punct c false p, ← token]
  | t => return [t]

end GoDecl.Grammar
