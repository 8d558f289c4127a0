import GoDecl.Grammar.Patterns

/-! The heads of functions: how visible they are, their parameters and their results. -/
namespace GoDecl.Grammar

/-- `pub`, perhaps with the part of the program that it is restricted to. Parentheses that hold
anything else belong to what follows. -/
def visibility : Parser Tokens := do
  if seesWord "pub" (← ahead) then
    let keyword ← word "pub"
    match ← ahead with
    | .group .paren [.word text _] _ _ :: _ =>
      if text = "crate" || text = "self" || text = "super" then return keyword ++ [← token]
      else return keyword
    | .group .paren inner _ _ :: _ =>
      if seesWord "in" inner then
        return keyword ++ (← group .paren do return (← word "in") ++ (← namePath))
      else return keyword
    | _ => return keyword
  else return []

/-- The object that a method is called on. The place is that of the word `self`. -/
def receiver (r : Rules) : Parser (Tokens × Position) := do
  let mark ← optionalPunct ['&']
  let life ← if !mark.isEmpty && seesLifetime (← ahead) then lifetime else pure []
  let mutable ← optionalWord "mut"
  let place := (← get).place
  let self ← word "self"
  let front := mark ++ life ++ mutable ++ self
  if mark.isEmpty && seesPunct [':'] (← ahead) then
    let colon ← punct [':']
    return (front ++ colon ++ (← r.typeTokens), place)
  else return (front, place)

/-- A parameter that is no receiver, and whether it stands for any number of them. A type with
arguments may go without its pattern. -/
def patternParameter (r : Rules) : Parser (Tokens × Bool) := do
  let a ← ahead
  if seesName a && seesPunct ['<'] (second a) then
    return (wordToken "_" :: Token.operator [':'] ++ (← r.typeTokens), false)
  else
    let pattern ← r.pattern
    let colon ← punct [':']
    if seesPunct ['.', '.', '.'] (← ahead) then
      return (pattern.tokens ++ colon ++ (← punct ['.', '.', '.']), true)
    else return (pattern.tokens ++ colon ++ (← r.typeTokens), false)

/-- The parameters of a function. A receiver can only be the first, and nothing may follow three
dots but a comma. -/
def parametersFrom (r : Rules) (count : Nat) (received : Bool) : (fuel : Nat) → Parser Tokens
  | 0 => throw .exhausted
  | fuel + 1 => do
    if ← atEnd then return []
    let attributes ← outerAttributes r
    if seesPunct ['.', '.', '.'] (← ahead) then
      let dots ← punct ['.', '.', '.']
      let comma ← if ← atEnd then pure [] else punct [',']
      return attributes ++ dots ++ comma
    else
      match ← attempt? (receiver r) with
      | some (found, place) =>
        if received then throw (.refused "unexpected second method receiver" place)
        else if 0 < count then throw (.refused "unexpected method receiver" place)
        else if ← atEnd then return attributes ++ found
        else
          let comma ← punct [',']
          return attributes ++ found ++ comma ++ (← parametersFrom r (count + 1) true fuel)
      | none =>
        let (found, isVariadic) ← patternParameter r
        if ← atEnd then return attributes ++ found
        else
          let comma ← punct [',']
          if isVariadic then return attributes ++ found ++ comma
          else return attributes ++ found ++ comma ++ (← parametersFrom r (count + 1) received fuel)

def seesFunction (safe : Bool) (a : Tokens) : Bool :=
  let skip (text : String) (a : Tokens) := if seesWord text a then a.drop 1 else a
  let a := skip "async" (skip "const" a)
  let a := if safe && seesWord "safe" a then a.drop 1 else skip "unsafe" a
  let a := if seesWord "extern" a then
      let b := a.drop 1
      if seesString b then b.drop 1 else b
    else a
  seesWord "fn" a

/-- The head of a function. There is no form to write `safe` back in. -/
def signature? (r : Rules) (safe : Bool) : Parser (Option Tokens) := do
  let constant ← optionalWord "const"
  let async ← optionalWord "async"
  let unsafety ← optionalWord "unsafe"
  let isSafe := safe && unsafety.isEmpty && seesWord "safe" (← ahead)
  if isSafe then discard token
  let convention ← optionalAbi
  let keyword ← word "fn"
  let text ← name
  let types ← typeParameters r
  let inner : Parser Tokens := do parametersFrom r 0 false ((← ahead).length + 1)
  insideThen .paren inner fun parameters => do
    let (result, _) ← resultType r true
    let conditions ← whereClause r
    if isSafe then return none
    else
      return some (constant ++ async ++ unsafety ++ convention ++ keyword ++
        wordToken text :: types ++ .wrap .paren parameters :: result ++ conditions)

def signature (r : Rules) : Parser Tokens := return (← signature? r false).getD []

end GoDecl.Grammar
