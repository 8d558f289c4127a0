import GoDecl.Grammar.Paths

/-! Type parameters, the bounds on them and the clauses that hold further bounds. -/
namespace GoDecl.Grammar

/-- Whether angle brackets ahead hold parameters rather than the self type of a path. -/
def opensParameters (a : Tokens) : Bool :=
  let b := second a
  let c := third a
  seesPunct ['<'] a &&
    (seesPunct ['>'] b || seesPunct ['#'] b || seesWord "const" b ||
      (seesLifetime b || seesName b) &&
        (seesPunct ['>'] c || seesPunct [','] c || seesColon c || seesPunct ['='] c))

/-- Whether a bound can begin here. -/
def seesBound (constants : Bool) (a : Tokens) : Bool :=
  seesAnyWord a || seesPunct pathMark a || seesPunct ['?'] a || seesLifetime a ||
    seesGroup .paren a || constants && seesGroup .bracket a

def endsParameter (a : Tokens) : Bool := a.isEmpty || seesPunct [','] a || seesPunct ['>'] a

/-- A colon and bounds. Without bounds the colon is not written back. -/
def optionalBounds (stop : Tokens → Bool) (item : Parser Tokens) : Parser Tokens := do
  if seesPunct [':'] (← ahead) then
    let colon ← punct [':']
    let bounds ← plusList stop item
    return if bounds.isEmpty then [] else colon ++ bounds
  else return []

def lifetimeParameter : Parser Tokens := do
  return (← lifetime) ++ (← optionalBounds endsParameter lifetime)

def typeParameter (r : Rules) : Parser Tokens := do
  let text ← name
  let stop (a : Tokens) := endsParameter a || seesPunct ['='] a
  let bounds ← optionalBounds stop (parameterBound r)
  if seesPunct ['='] (← ahead) then
    let eq ← punct ['=']
    return wordToken text :: bounds ++ eq ++ (← r.typeTokens)
  else return wordToken text :: bounds

def constParameter (r : Rules) : Parser Tokens := do
  let keyword ← word "const"
  let text ← name
  let colon ← punct [':']
  let type ← r.typeTokens
  let front := keyword ++ wordToken text :: colon ++ type
  if seesPunct ['='] (← ahead) then
    let eq ← punct ['=']
    return front ++ eq ++ (← constArgument r)
  else return front

/-- A parameter and whether it is a lifetime; `otherwise` reads what is none of them. -/
def parameter (r : Rules) (otherwise : Parser Tokens) : Parser (Bool × Tokens) := do
  let attributes ← outerAttributes r
  let a ← ahead
  if seesLifetime a then return (true, attributes ++ (← lifetimeParameter))
  else if seesName a then return (false, attributes ++ (← typeParameter r))
  else if seesWord "const" a then return (false, attributes ++ (← constParameter r))
  else return (false, attributes ++ (← otherwise))

/-- Parameters in angle brackets behind `for`. -/
def boundLifetimes (r : Rules) : Parser Tokens := do
  if seesWord "for" (← ahead) then
    let keyword ← word "for"
    let low ← punct ['<']
    let otherwise := refuseFor ["identifier", "lifetime", ticked "const"]
    let inner ← listUntil (seesPunct ['>']) do return (← parameter r otherwise).2
    let high ← punct ['>']
    return keyword ++ low ++ inRow inner ++ high
  else return []

/-- Type parameters of a declaration: lifetimes are written first, and empty brackets not at all. -/
def typeParameters (r : Rules) : Parser Tokens := do
  if seesPunct ['<'] (← ahead) then
    let low ← punct ['<']
    let otherwise : Parser Tokens := do
      if seesWord "_" (← ahead) then return [← token]
      else refuseFor ["lifetime", "identifier", ticked "const"]
    let parameters ← listUntil (seesPunct ['>']) (parameter r otherwise)
    let high ← punct ['>']
    let inner :=
      firstThings (parameters.map fun ((isLifetime, item), comma) => (isLifetime, item, comma))
    return if parameters.isEmpty then [] else low ++ inner ++ high
  else return []

/-- Where a list of predicates or of bounds in one ends. -/
def endsPredicate (a : Tokens) : Bool :=
  a.isEmpty || seesGroup .brace a || seesPunct [','] a || seesPunct [';'] a || seesColon a ||
    seesPunct ['='] a

def predicate (r : Rules) : Parser Tokens := do
  let a ← ahead
  if seesLifetime a && seesPunct [':'] (second a) then
    let subject ← lifetime
    let colon ← punct [':']
    let stop (a : Tokens) := endsPredicate a || seesPunct [':'] a
    return subject ++ colon ++ (← plusList stop lifetime)
  else
    let lifetimes ← boundLifetimes r
    let subject ← r.typeTokens
    let colon ← punct [':']
    return lifetimes ++ subject ++ colon ++ (← plusList endsPredicate (parameterBound r))

def predicates (r : Rules) : (fuel : Nat) → Parser Tokens
  | 0 => throw .exhausted
  | fuel + 1 => do
    if endsPredicate (← ahead) then return []
    let first ← predicate r
    if seesPunct [','] (← ahead) then
      let comma ← punct [',']
      return first ++ comma ++ (← predicates r fuel)
    else return first

/-- `where` and its predicates. Without predicates nothing is written back, but that it was there is
kept. -/
def whereClause? (r : Rules) : Parser (Option Tokens) := do
  if seesWord "where" (← ahead) then
    let keyword ← word "where"
    if opensParameters (← ahead) then
      refuse "generic parameters on `where` clauses are reserved for future use"
    else
      let found ← predicates r ((← ahead).length + 1)
      return some (if found.isEmpty then [] else keyword ++ found)
  else return none

def whereClause (r : Rules) : Parser Tokens := return (← whereClause? r).getD []

/-- Types in parentheses and a result type, behind a path. The flag says whether the whole ends
with a name that could take arguments. -/
def callTypes (r : Rules) : Parser (Tokens × Bool) := do
  let inputs ← group .paren (list r.typeTokens)
  if seesPunct ['-', '>'] (← ahead) then
    let arrow ← punct ['-', '>']
    let result ← r.type false
    return (inputs ++ arrow ++ result.tokens, result.bareTail)
  else return (inputs, false)

/-- A trait that a bound names. The result says whether it is marked as constant; such a bound is
kept as it was written. -/
def traitBound (r : Rules) (constants : Bool) : Parser (BoundRead × Bool) := do
  let outer ← boundLifetimes r
  let place := (← get).place
  let a ← ahead
  let perhaps := seesGroup .bracket a
  let always := seesWord "const" a
  if perhaps then discard (inside .bracket (word "const"))
  if always then discard (word "const")
  if perhaps && !constants then throw (.refused "`[const]` is not allowed here" place)
  if always && !constants then throw (.refused "`const` is not allowed here" place)
  let place := (← get).place
  let maybe ← optionalPunct ['?']
  let lifetimes ← if outer.isEmpty && !maybe.isEmpty then boundLifetimes r else pure outer
  let p ← plainPath r false
  let a ← ahead
  let called := !p.lastHasArguments &&
    (seesGroup .paren a || seesPunct pathMark a && seesGroup .paren (third a))
  let (call, bareTail) ←
    if called then
      discard (optionalPunct pathMark)
      callTypes r
    else pure ([], !p.lastHasArguments)
  if !lifetimes.isEmpty && !maybe.isEmpty then
    throw (.refused "`for<...>` binder not allowed with `?` trait polarity modifier" place)
  else return ({ tokens := lifetimes ++ maybe ++ p.tokens ++ call, bareTail }, perhaps || always)

/-- The parameters that a bound captures, up to the closing bracket; lifetimes are written first. -/
def captured : (fuel : Nat) → Parser (List (Bool × Tokens × Tokens))
  | 0 => throw .exhausted
  | fuel + 1 => do
    let a ← ahead
    if seesLifetime a || seesName a || seesWord "Self" a then
      let item ← if seesLifetime a then lifetime else pure [← token]
      let isLifetime := seesLifetime a
      let a ← ahead
      if seesPunct [','] a then
        let comma ← punct [',']
        return (isLifetime, item, comma) :: (← captured fuel)
      else if seesPunct ['>'] a then return [(isLifetime, item, [])]
      else refuseFor [ticked ",", ticked ">"]
    else if seesPunct ['>'] a then return []
    else refuseFor ["lifetime", "identifier", ticked ">"]

def captureBound : Parser Tokens := do
  let keyword ← word "use"
  let low ← punct ['<']
  let parameters ← captured ((← ahead).length + 1)
  let high ← punct ['>']
  return keyword ++ low ++ firstThings parameters ++ high

/-- A bound: a lifetime, captured parameters, or a trait, perhaps in parentheses. -/
def boundRule (r : Rules) (captures constants : Bool) : Parser BoundRead := do
  let start ← ahead
  let place := (← get).place
  if seesLifetime start then return { tokens := ← lifetime, sort := .lifetime }
  else if seesWord "use" start then
    let tokens ← captureBound
    if captures then return { tokens, sort := .capture }
    else throw (.refused "`use<...>` precise capturing syntax is not allowed here" place)
  else
    let enclosed := seesGroup .paren start
    let (found, isConst) ←
      if enclosed then inside .paren (traitBound r constants) else traitBound r constants
    if isConst then return { tokens := ← since start, sort := .raw }
    else if enclosed then return { found with tokens := [.wrap .paren found.tokens] }
    else return found

end GoDecl.Grammar
