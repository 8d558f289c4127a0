import GoDecl.Grammar.Patterns

/-! Blocks, conditions, loops and `match`. Their heads take no braces behind a path. -/
namespace GoDecl.Grammar

def head (r : Rules) : Parser Tokens := return (← r.expr false).tokensIn .ofHead

/-- `if` with all its `else if` and a last `else`. -/
def ifFrom (r : Rules) : (fuel : Nat) → Parser Tokens
  | 0 => throw .exhausted
  | fuel + 1 => do
    let keyword ← word "if"
    let condition ← head r
    let body ← block r
    let clause := keyword ++ condition ++ body
    if seesWord "else" (← ahead) then
      let otherwise ← word "else"
      let a ← ahead
      if seesWord "if" a then return clause ++ otherwise ++ (← ifFrom r fuel)
      else if seesGroup .brace a then return clause ++ otherwise ++ (← block r)
      else refuseFor [ticked "if", "curly braces"]
    else return clause

def ifExpr (r : Rules) : Parser Tokens := do ifFrom r ((← ahead).length + 1)

def whileExpr (r : Rules) : Parser Tokens := do
  return (← word "while") ++ (← head r) ++ (← attributedBlock r)

def forExpr (r : Rules) : Parser Tokens := do
  let keyword ← word "for"
  let pattern ← alternativeTokens r
  let inside ← word "in"
  return keyword ++ pattern ++ inside ++ (← head r) ++ (← attributedBlock r)

def loopExpr (r : Rules) : Parser Tokens := do
  return (← word "loop") ++ (← attributedBlock r)

/-- A loop or block behind a label. -/
def labelled (r : Rules) : Parser Tree := do
  let label ← lifetime
  let colon ← punct [':']
  let a ← ahead
  let finish (shape : Shape) (body : Tokens) : Tree := .other shape (label ++ colon ++ body)
  if seesWord "while" a then return finish .whileLoop (← whileExpr r)
  else if seesWord "for" a then return finish .forLoop (← forExpr r)
  else if seesWord "loop" a then return finish .endless (← loopExpr r)
  else if seesGroup .brace a then return finish .block (← attributedBlock r)
  else refuse "expected loop or block expression"

/-- `for` with parameters behind it opens a closure, not a loop. -/
def seesBoundLifetimes (a : Tokens) : Bool := seesWord "for" a && opensParameters (second a)

/-- One arm of a `match`. A comma may go unless the arm ends with a block. -/
def arm (r : Rules) : Parser Tokens := do
  let attributes ← outerAttributes r
  let pattern ← alternativeTokens r
  let guarded ←
    if seesWord "if" (← ahead) then pure ((← word "if") ++ (← r.value)) else pure []
  let arrow ← punct ['=', '>']
  let body ← r.statementExpr
  let comma ← if !body.isBlockLike && !(← atEnd) then punct [','] else optionalPunct [',']
  return attributes ++ pattern ++ guarded ++ arrow ++ body.tokensIn .ofArm ++ comma

def matchExpr (r : Rules) : Parser Tokens := do
  let keyword ← word "match"
  let value ← head r
  let arms ← group .brace do return (← innerAttributes r) ++ (← untilEnd (arm r))
  return keyword ++ value ++ arms

/-- An expression with a block of its own, where one is ahead. -/
def blockLike? (r : Rules) : Parser (Option Tree) := do
  let a ← ahead
  let found (shape : Shape) (body : Tokens) : Option Tree := some (.other shape body)
  if seesWord "if" a then return found .ifElse (← ifExpr r)
  else if seesWord "while" a then return found .whileLoop (← whileExpr r)
  else if seesWord "for" a && !seesBoundLifetimes a then return found .forLoop (← forExpr r)
  else if seesWord "loop" a then return found .endless (← loopExpr r)
  else if seesWord "match" a then return found .arms (← matchExpr r)
  else if seesWord "try" a && seesGroup .brace (second a) then
    return found .tryBlock ((← word "try") ++ (← block r))
  else if seesWord "unsafe" a then
    return found .unsafeBlock ((← word "unsafe") ++ (← attributedBlock r))
  else if seesWord "const" a && seesGroup .brace (second a) then
    return found .constBlock ((← word "const") ++ (← attributedBlock r))
  else if seesGroup .brace a then return found .block (← attributedBlock r)
  else if seesLifetime a then return some (← labelled r)
  else return none

end GoDecl.Grammar
