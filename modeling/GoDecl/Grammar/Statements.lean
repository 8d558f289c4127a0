import GoDecl.Grammar.Control
import GoDecl.Grammar.Items

/-! Statements of a block: expressions, `let`, calls with a bang and declarations. -/
namespace GoDecl.Grammar

/-- An expression as a statement. One that ends with its own block goes on only behind a selector
or a question mark. -/
def statementExprRule (r : Rules) : Parser Tree := do
  let attributes ← outerAttributes r
  match ← blockLike? r with
  | some e =>
    let a ← ahead
    if seesPoint a || seesPunct ['?'] a then
      let e ← trailers r e
      r.operators (e.mark attributes) true .jump
    else return e.mark attributes
  | none =>
    let e ← r.unary true
    r.operators (e.mark attributes) true .jump

def letStatement (r : Rules) : Parser Tokens := do
  let keyword ← word "let"
  let pattern ← r.pattern
  let type ←
    if seesPunct [':'] (← ahead) then
      let colon ← punct [':']
      pure (colon ++ (← r.typeTokens))
    else pure []
  let value ←
    if seesPunct ['='] (← ahead) then
      let eq ← punct ['=']
      let e ← r.expr true
      let otherwise ←
        if !e.trailsWithBrace && seesWord "else" (← ahead) then
          pure ((← word "else") ++ (← block r))
        else pure []
      pure (eq ++ e.tokens ++ otherwise)
    else pure []
  return keyword ++ pattern.tokens ++ type ++ value ++ (← punct [';'])

def seesItem (a : Tokens) : Bool :=
  let b := second a
  let c := third a
  let functionWords := ["unsafe", "extern", "fn"]
  seesAnyOf ["pub", "extern", "use", "fn", "mod", "type", "struct", "enum", "trait", "impl",
      "macro"] a ||
    seesWord "crate" a && !seesPunct pathMark b ||
    seesWord "static" a && (seesWord "mut" b || seesName b) ||
    seesWord "const" a && !(seesGroup .brace b || seesWord "static" b ||
      seesWord "async" b && !seesAnyOf functionWords c ||
      seesWord "move" b || seesPunct ['|'] b) ||
    seesWord "unsafe" a && !seesGroup .brace b ||
    seesWord "async" a && seesAnyOf functionWords b ||
    seesWord "union" a && seesName b ||
    seesWord "auto" a && seesWord "trait" b ||
    seesWord "default" a && seesAnyOf ["unsafe", "impl"] b

/-- What a path with a bang behind it is, where a statement begins. -/
inductive BangAhead where
  /-- A declaration: a name follows the bang. -/
  | item
  /-- A call in braces that is a statement by itself. -/
  | statement
  | none

/-- Looks behind a path of names, without taking it. -/
def bangAhead : Parser BangAhead := do
  let c ← get
  let path? ← attempt? namePath
  let a ← ahead
  set c
  let b := second a
  let behind := third a
  if path?.isNone || !seesPunct ['!'] a then return .none
  else if seesName b || seesWord "try" b then return .item
  else if seesGroup .brace b && !(seesPoint behind || seesPunct ['?'] behind) then
    return .statement
  else return .none

/-- A call in braces as a statement, with its semicolon. -/
def bangStatement : Parser Tokens := do
  let path ← namePath
  let bang ← punct ['!']
  let body ← anyGroup
  return path ++ bang ++ body :: (← optionalPunct [';'])

/-- A statement, and whether it needs a semicolon in front of the next. -/
def statement (r : Rules) : Parser (Tokens × Bool) := do
  let start ← ahead
  let attributes ← outerAttributes r
  let a ← ahead
  match ← bangAhead with
  | .statement => return (attributes ++ (← bangStatement), false)
  | .item => return (← r.item start attributes, false)
  | .none =>
    if seesWord "let" a then return (attributes ++ (← letStatement r), false)
    else if seesItem a then return (← r.item start attributes, false)
    else
      let e ← r.statementExpr
      let marked := e.markFirst attributes
      let semicolon ← optionalPunct [';']
      let needsSemicolon := semicolon.isEmpty && !e.isBlockLike && !e.isBraceCall
      return (marked.tokensIn .ofStatement ++ semicolon, needsSemicolon)

def statementsFrom (r : Rules) : (fuel : Nat) → Parser Tokens
  | 0 => throw .exhausted
  | fuel + 1 => do
    let empties ← manyWhile (seesPunct [';']) (punct [';'])
    if ← atEnd then return empties
    let (read, needsSemicolon) ← statement r
    if ← atEnd then return empties ++ read
    else if needsSemicolon then refuse "unexpected token, expected `;`"
    else return empties ++ read ++ (← statementsFrom r fuel)

def statementsRule (r : Rules) : Parser Tokens := do
  statementsFrom r ((← ahead).length + 1)

end GoDecl.Grammar
