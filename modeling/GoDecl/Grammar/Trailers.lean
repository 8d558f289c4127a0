import GoDecl.Grammar.Paths
import GoDecl.Token.Lexeme

/-! What may stand behind an operand: calls, selectors, indices and question marks. -/
namespace GoDecl.Grammar

def exprList (r : Rules) : Parser Tokens := list r.value

/-- An integer that selects a part by its position. It is below 2³² and printed in base ten. -/
def indexToken (text : String) (place : Position) : Parser Token :=
  let refused (message : String) : Parser Token := throw (.refused message place)
  let digits := match text.toList with
    | '-' :: digits => digits
    | digits => digits
  match Token.literal? digits with
  | some (.int _, []) =>
    match Token.readInt? digits with
    | some (n, []) =>
      if digits.length < text.length then refused "invalid digit found in string"
      else if n < Nat.pow 2 32 then return .literal (.int (Value.intText n)) place
      else refused "number too large to fit in target type"
    | _ => refused "expected unsuffixed integer"
  | _ => refused "expected integer literal"

def numberText : Parser String := return String.join ((← literalTokens).map Token.text)

/-- The name of a part: a name or an integer. The flag says that it is a name. -/
def member : Parser (Token × Bool) := do
  let a ← ahead
  if seesName a then return (wordToken (← name), true)
  else if seesInt a then
    let place := (← get).place
    return (← indexToken (← numberText) place, false)
  else refuse "expected identifier or integer"

/-- The positions that a float behind a point names, and whether its own point is the last
character: `1.2` is two positions, `1.` is one and a point. -/
def floatParts (text : String) : List String × Bool :=
  let parts := text.splitOn "."
  if parts.getLast? = some "" then (parts.dropLast, true) else (parts, false)

def floatSelectors (place : Position) (base : Tree) : List String → Parser Tree
  | [] => return base
  | part :: rest => do
    let index ← indexToken part place
    floatSelectors place (.trailer .part base (Token.operator ['.'] ++ [index])) rest

/-- What follows a point that is already read: `await`, a part, or a call of a method. -/
def selector (r : Rules) (base : Tree) : Parser Tree := do
  let point := Token.operator ['.']
  if seesWord "await" (← ahead) then
    return .trailer .await base (point ++ (← word "await"))
  else
    let (part, isName) ← member
    let types ← if isName && seesPunct pathMark (← ahead) then typeArguments r else pure []
    if !types.isEmpty || isName && seesGroup .paren (← ahead) then
      let call ← group .paren (exprList r)
      return .trailer .method base (point ++ part :: types ++ call)
    else return .trailer .part base (point ++ [part])

def pointTrailer (r : Rules) (base : Tree) : Parser Tree := do
  discard (punct ['.'])
  if seesFloat (← ahead) then
    let place := (← get).place
    let (parts, endsInPoint) := floatParts (← numberText)
    let selected ← floatSelectors place base parts
    if endsInPoint then selector r selected else return selected
  else selector r base

/-- All that follows an operand. A range takes calls and indices only. -/
def trailersFrom (r : Rules) (e : Tree) : (fuel : Nat) → Parser Tree
  | 0 => throw .exhausted
  | fuel + 1 => do
    let a ← ahead
    if seesGroup .paren a then
      let call ← group .paren (exprList r)
      trailersFrom r (.trailer .call e call) fuel
    else if seesPoint a && !e.isRange then trailersFrom r (← pointTrailer r e) fuel
    else if seesGroup .bracket a then
      let index ← group .bracket r.value
      trailersFrom r (.trailer .index e index) fuel
    else if seesPunct ['?'] a && !e.isRange then
      let mark ← punct ['?']
      trailersFrom r (.trailer .question e mark) fuel
    else return e

def trailers (r : Rules) (e : Tree) : Parser Tree := do
  trailersFrom r e ((← ahead).length + 1)

end GoDecl.Grammar
