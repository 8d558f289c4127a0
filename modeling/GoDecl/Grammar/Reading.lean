import GoDecl.Grammar.Expressions
import GoDecl.Grammar.Statements
import GoDecl.ParseError
import GoDecl.Token.Lexer

/-! The grammar at work: rules tied together to a bounded depth, and the reading of whole texts. -/
namespace GoDecl.Grammar

/-- The rules where calls from rule to rule nest at most `n` deep. The inner rules are made only
when a rule runs. -/
def Rules.atDepth : (n : Nat) → Rules
  | 0 => .none
  | n + 1 =>
    { expr := fun structs c => exprRule (atDepth n) structs c
      unary := fun structs c => unaryRule (atDepth n) structs c
      operators := fun left structs base c => operatorsRule (atDepth n) left structs base c
      operand := fun structs above c => operandRule (atDepth n) structs above c
      operandTail := fun right structs above c => operandTailRule (atDepth n) right structs above c
      type := fun plus c => typeRule (atDepth n) plus c
      bound := fun captures constants c => boundRule (atDepth n) captures constants c
      pattern := fun c => patternRule (atDepth n) c
      statementExpr := fun c => statementExprRule (atDepth n) c
      statements := fun c => statementsRule (atDepth n) c
      item := fun start attributes c => itemRule (atDepth n) start attributes c
      useTree := fun rooted c => useTreeRule (atDepth n) rooted c }

/-- A depth that suffices for tokens: only so many rules are entered before one is taken. -/
def depthFor (tokens : Tokens) : Nat := 8 * (Token.sizeOfAll tokens + 2)

def expression : Parser Expr := do
  return (← (Rules.atDepth (depthFor (← ahead))).expr true).toExpr

def Stray.message (s : Stray) : String :=
  match s.scope with
  | some d => "unexpected token, expected " ++ ticked (.singleton d.closing)
  | none => "unexpected token"

def readAll {α : Type} (reader : Parser α) (tokens : Tokens) : Except Fault α := do
  let (result, c) ← reader.run { ahead := tokens }
  match c.stray <|> c.leftOver with
  | some s => throw (.refused s.message s.place)
  | none => return result

def readText {α : Type} (reader : Parser α) (text shown : List Char) : Except ParseError α :=
  match Token.lex text with
  | .error place => .error (.atPlace "cannot parse string into token stream" place shown)
  | .ok tokens =>
    match readAll reader tokens with
    | .ok result => .ok result
    | .error (.refused message place) => .error (.atPlace message place shown)
    | .error .exhausted => .error (.atPlace "expression nests too deeply" {} shown)

end GoDecl.Grammar

namespace GoDecl

/-- A text that is one expression. It is taken as it stands, without its normal form. -/
def Expr.parse (source : String) : Except ParseError Expr :=
  Grammar.readText Grammar.expression source.toList source.toList

end GoDecl
