import GoDecl.Grammar.Attributes

/-! Paths: names parted by `::`, with type arguments and an optional self type in front. -/
namespace GoDecl.Grammar

structure PathRead where
  tokens : Tokens
  names : List String
  rooted : Bool := false
  selfTyped : Bool := false
  hasArguments : Bool := false
  lastHasArguments : Bool := false

/-- A number, a block or a name in the place of a type. -/
def constArgument (r : Rules) : Parser Tokens := do
  let a ← ahead
  if seesLiteral a then literalTokens
  else if seesName a then return [← token]
  else if seesGroup .brace a then attributedBlock r
  else if a.isEmpty then refusePlainly "unexpected end of input"
  else refusePlainly "unexpected token"

/-- Items joined by `+`, up to where `stop` holds; the last `+` may stand alone. -/
def plusItems (stop : Tokens → Bool) (item : Parser Tokens) : (fuel : Nat) → Parser Tokens
  | 0 => throw .exhausted
  | fuel + 1 => do
    if stop (← ahead) then return []
    let first ← item
    if seesPunct ['+'] (← ahead) then
      let plus ← punct ['+']
      return first ++ plus ++ (← plusItems stop item fuel)
    else return first

def plusList (stop : Tokens → Bool) (item : Parser Tokens) : Parser Tokens := do
  plusItems stop item ((← ahead).length + 1)

def parameterBound (r : Rules) : Parser Tokens := return (← r.bound false true).tokens

/-- One type argument: a lifetime, a constant, or a type with an optional binding. The flag says
that it is a lifetime. -/
def argument (r : Rules) : Parser (Bool × Tokens) := do
  let a ← ahead
  if seesLifetime a && !seesPunct ['+'] (second a) then return (true, ← lifetime)
  else if seesLiteral a || seesGroup .brace a then return (false, ← constArgument r)
  else
    let type ← r.type true
    match type.form with
    | .path true =>
      let a ← ahead
      if seesPunct ['='] a then
        let eq ← punct ['=']
        let a ← ahead
        let value ←
          if seesLiteral a || seesGroup .brace a then constArgument r else r.typeTokens
        return (false, type.tokens ++ eq ++ value)
      else if seesPunct [':'] a then
        let colon ← punct [':']
        let stop (a : Tokens) := seesPunct [','] a || seesPunct ['>'] a
        return (false, type.tokens ++ colon ++ (← plusList stop (parameterBound r)))
      else return (false, type.tokens)
    | _ => return (false, type.tokens)

/-- Angle brackets and what they hold; lifetimes are written first. -/
def typeArguments (r : Rules) : Parser Tokens := do
  let mark ← optionalPunct pathMark
  let low ← punct ['<']
  let arguments ← listUntil (seesPunct ['>']) (argument r)
  let high ← punct ['>']
  let inner :=
    firstThings (arguments.map fun ((isLifetime, item), comma) => (isLifetime, item, comma))
  return mark ++ low ++ inner ++ high

/-- One name of a path with its arguments. In expressions arguments need `::` in front. -/
def segment (r : Rules) (inExpr : Bool) : Parser (String × Tokens) := do
  let a ← ahead
  if seesAnyOf ["super", "self", "crate", "try"] a then return (← anyWord, [])
  else
    let text ← if seesWord "Self" a then anyWord else name
    let a ← ahead
    if !inExpr && seesPunct ['<'] a && !seesPunct ['<', '='] a && !seesPunct ['<', '<', '='] a ||
        seesPunct pathMark a && seesPunct ['<'] (third a) then
      return (text, ← typeArguments r)
    else return (text, [])

/-- The names behind the first, as long as `goesOn` sees one. -/
def pathRest (r : Rules) (inExpr : Bool) (goesOn : Tokens → Bool) (soFar : PathRead) :
    (fuel : Nat) → Parser PathRead
  | 0 => throw .exhausted
  | fuel + 1 => do
    if goesOn (← ahead) then
      let mark ← punct pathMark
      let (text, arguments) ← segment r inExpr
      let longer := { soFar with
        tokens := soFar.tokens ++ mark ++ wordToken text :: arguments
        names := soFar.names ++ [text]
        hasArguments := soFar.hasArguments || !arguments.isEmpty
        lastHasArguments := !arguments.isEmpty }
      pathRest r inExpr goesOn longer fuel
    else return soFar

/-- A path without a self type. It ends in front of a `::` with parentheses behind it. -/
def plainPath (r : Rules) (inExpr : Bool) : Parser PathRead := do
  let root ← optionalPunct pathMark
  let (text, arguments) ← segment r inExpr
  let first : PathRead := {
    tokens := root ++ wordToken text :: arguments
    names := [text]
    rooted := !root.isEmpty
    hasArguments := !arguments.isEmpty
    lastHasArguments := !arguments.isEmpty }
  let goesOn (a : Tokens) := seesPunct pathMark a && !seesGroup .paren (third a)
  pathRest r inExpr goesOn first ((← ahead).length + 1)

/-- A path, or `<T>::name` and `<T as Bound>::name`. Of the latter the names are those behind the
self type. -/
def anyPath (r : Rules) (inExpr : Bool) : Parser PathRead := do
  if seesPunct ['<'] (← ahead) then
    let low ← punct ['<']
    let self ← r.typeTokens
    let named ←
      if seesWord "as" (← ahead) then
        let as ← word "as"
        let p ← plainPath r false
        pure { p with tokens := as ++ p.tokens : PathRead }
      else pure { tokens := [], names := [] : PathRead }
    let high ← punct ['>']
    let mark ← punct pathMark
    let (text, arguments) ← segment r inExpr
    let first : PathRead := {
      tokens := low ++ self ++ named.tokens ++ high ++ mark ++ wordToken text :: arguments
      names := named.names ++ [text]
      rooted := true
      selfTyped := true
      hasArguments := true
      lastHasArguments := !arguments.isEmpty }
    pathRest r inExpr (seesPunct pathMark) first ((← ahead).length + 1)
  else plainPath r inExpr

/-- A bang and a group behind a path of names only, where one follows. -/
def bangCall? (p : PathRead) : Parser (Option Tokens) := do
  if !p.selfTyped && seesBang (← ahead) && !p.hasArguments then
    let bang ← punct ['!']
    return some (p.tokens ++ bang ++ [← anyGroup])
  else return none

def PathRead.toTree (p : PathRead) : Tree :=
  match p.names, p.rooted || p.hasArguments with
  | [text], false => .name text
  | names, _ => .qualified names p.tokens

end GoDecl.Grammar
