import GoDecl.Grammar.Generics

/-! Types, as expressions, patterns and declarations name them. -/
namespace GoDecl.Grammar

/-- Several bounds in a row. `names` says that one of them is no lifetime and no list of captured
parameters. -/
structure BoundsRead where
  tokens : Tokens
  names : Bool
  bareTail : Bool

def BoundsRead.ofBound (b : BoundRead) : BoundsRead :=
  { tokens := b.tokens, names := b.sort = .trait || b.sort = .raw, bareTail := b.bareTail }

def BoundsRead.push (plus : Tokens) (b : BoundRead) (more : BoundsRead) : BoundsRead :=
  { more with
    tokens := b.tokens ++ plus ++ more.tokens
    names := b.sort = .trait || b.sort = .raw || more.names }

/-- Bounds joined by `+` if `plus` allows it; the last `+` may stand alone. -/
def boundsFrom (r : Rules) (plus captures constants : Bool) : (fuel : Nat) → Parser BoundsRead
  | 0 => throw .exhausted
  | fuel + 1 => do
    let first ← r.bound captures constants
    if plus && seesPunct ['+'] (← ahead) then
      let mark ← punct ['+']
      if seesBound constants (← ahead) then
        return .push mark first (← boundsFrom r plus captures constants fuel)
      else return { BoundsRead.ofBound first with tokens := first.tokens ++ mark }
    else return .ofBound first

/-- The bounds of a trait object; the complaint about missing traits goes to `place`. -/
def objectBounds (r : Rules) (plus : Bool) (place : Position) : Parser BoundsRead := do
  let found ← boundsFrom r plus false false ((← ahead).length + 1)
  if found.names then return found
  else throw (.refused "at least one trait is required for an object type" place)

/-- Further bounds, each behind a `+`. The flag says whether the last `+` may stand alone. -/
def moreBounds (r : Rules) (lonePlus : Bool) (soFar : BoundsRead) : (fuel : Nat) → Parser BoundsRead
  | 0 => throw .exhausted
  | fuel + 1 => do
    if seesPunct ['+'] (← ahead) then
      let mark ← punct ['+']
      if lonePlus && !seesBound false (← ahead) then
        return { soFar with tokens := soFar.tokens ++ mark }
      else
        let next ← r.bound false false
        let longer := { soFar with
          tokens := soFar.tokens ++ mark ++ next.tokens, bareTail := next.bareTail }
        moreBounds r lonePlus longer fuel
    else return soFar

/-- A bound that stands for a type, with those joined to it. -/
def boundType (r : Rules) (lonePlus : Bool) (first : BoundRead) : Parser TypeRead := do
  let found ← moreBounds r lonePlus (.ofBound first) ((← ahead).length + 1)
  if found.tokens.length = first.tokens.length then
    return { tokens := first.tokens, form := .lone first, bareTail := first.bareTail }
  else return { tokens := found.tokens, bareTail := found.bareTail }

/-- What parentheses among types hold. -/
inductive ParenTypes where
  | done (tokens : Tokens)
  | maybe (bound : BoundRead)
  | one (type : TypeRead)

def parenTypes (r : Rules) : Parser ParenTypes := do
  let a ← ahead
  if a.isEmpty then return .done []
  else if seesLifetime a then
    return .done (← objectBounds r true (← get).place).tokens
  else if seesPunct ['?'] a then return .maybe (← traitBound r false).1
  else
    let first ← r.type true
    if seesPunct [','] (← ahead) then
      let comma ← punct [',']
      return .done (first.tokens ++ comma ++ (← list r.typeTokens))
    else return .one first

/-- A type in parentheses as the first of several bounds, where it can be one. -/
def TypeRead.enclosedBound? (t : TypeRead) : Option BoundRead :=
  match t.form with
  | .path _ =>
    some { tokens := [.wrap .paren t.tokens], inner := t.tokens, bareTail := t.bareTail }
  | .lone b =>
    if b.sort = .trait then some { b with tokens := [.wrap .paren b.inner] } else some b
  | .other => none

def parenType (r : Rules) (plus : Bool) : Parser TypeRead :=
  insideThen .paren (parenTypes r) fun found => do
    match found with
    | .done tokens => return { tokens := [.wrap .paren tokens] }
    | .maybe b => boundType r false { b with tokens := [.wrap .paren b.tokens] }
    | .one first =>
      let whole : TypeRead := { tokens := [.wrap .paren first.tokens] }
      if plus && seesPunct ['+'] (← ahead) then
        match first.enclosedBound? with
        | some b => boundType r false b
        | none => return whole
      else return whole

/-- The word `self` as the first parameter of a function type, with `mut` in front. -/
def seesMutSelf (a : Tokens) : Bool := seesWord "mut" a && seesWord "self" (second a)

/-- A parameter of a function type: a name may stand in front of its type. A parameter with
`mut self` is kept as it was written. -/
def functionParameter (r : Rules) (first : Bool) : Parser Tokens := do
  let start ← ahead
  let mutable := first && seesMutSelf start
  if mutable then discard (word "mut")
  let a ← ahead
  let isSelf := first && seesWord "self" a
  let named := (seesName a || seesWord "_" a || isSelf) && seesColon (second a)
  let label ← if named then pure ((← token) :: (← punct [':'])) else pure []
  let a ← ahead
  if first && !(named && isSelf) && seesMutSelf a then
    discard (word "mut")
    discard (word "self")
    since start
  else if mutable && !named then
    discard (word "self")
    since start
  else
    let type ← r.typeTokens
    if mutable then since start else return label ++ type

/-- Three dots for any number of parameters, perhaps behind a name. -/
def seesVariadic (a : Tokens) : Bool :=
  let dots := ['.', '.', '.']
  seesPunct dots a ||
    (seesName a || seesWord "_" a) && seesPunct [':'] (second a) && seesPunct dots (third a)

/-- The parameters of a function type. Nothing may follow three dots but a comma. -/
def functionParameters (r : Rules) (first : Bool) : (fuel : Nat) → Parser Tokens
  | 0 => throw .exhausted
  | fuel + 1 => do
    if ← atEnd then return []
    let attributes ← outerAttributes r
    let a ← ahead
    if seesVariadic a then
      let label ←
        if seesAnyWord a then pure ((← token) :: (← punct [':'])) else pure []
      let dots ← punct ['.', '.', '.']
      return attributes ++ label ++ dots ++ (← optionalPunct [','])
    else
      let parameter ← functionParameter r first
      if ← atEnd then return attributes ++ parameter
      let comma ← punct [',']
      return attributes ++ parameter ++ comma ++ (← functionParameters r false fuel)

/-- `extern` and the name of a calling convention. -/
def abi : Parser Tokens := do
  let keyword ← word "extern"
  if seesString (← ahead) then return keyword ++ [← token] else return keyword

def optionalAbi : Parser Tokens := do
  if seesWord "extern" (← ahead) then abi else return []

/-- An arrow and a result type. The flag says whether it ends with a name that could take
arguments. -/
def resultType (r : Rules) (plus : Bool) : Parser (Tokens × Bool) := do
  if seesPunct ['-', '>'] (← ahead) then
    let arrow ← punct ['-', '>']
    let type ← r.type plus
    return (arrow ++ type.tokens, type.bareTail)
  else return ([], false)

def functionType (r : Rules) (lifetimes : Tokens) : Parser TypeRead := do
  let safety ← optionalWord "unsafe"
  let convention ← optionalAbi
  let keyword ← word "fn"
  let inner : Parser Tokens := do functionParameters r true ((← ahead).length + 1)
  insideThen .paren inner fun parameters => do
    let (result, bareTail) ← resultType r false
    let front := lifetimes ++ safety ++ convention ++ keyword
    return { tokens := front ++ .wrap .paren parameters :: result, bareTail }

/-- A path as a type, alone, called with a bang, or with bounds behind it. -/
def pathType (r : Rules) (plus : Bool) (lifetimes : Tokens) : Parser TypeRead := do
  let p ← anyPath r false
  let bareTail := !p.lastHasArguments
  if p.selfTyped then return { tokens := p.tokens, bareTail }
  else
    match ← bangCall? p with
    | some call => return { tokens := call }
    | none =>
      if !lifetimes.isEmpty || plus && seesPunct ['+'] (← ahead) then
        let first : BoundRead := { tokens := lifetimes ++ p.tokens, bareTail }
        if plus then boundType r true first
        else return { tokens := first.tokens, form := .lone first, bareTail }
      else
        return {
          tokens := p.tokens
          form := .path (p.names.length = 1 && !p.rooted)
          bareTail }

def bracketType (r : Rules) : Parser Tokens :=
  group .bracket do
    let element ← r.typeTokens
    if seesPunct [';'] (← ahead) then
      let mark ← punct [';']
      return element ++ mark ++ (← r.value)
    else return element

def pointerType (r : Rules) : Parser TypeRead := do
  let star ← punct ['*']
  let a ← ahead
  if seesWord "const" a || seesWord "mut" a then
    let sort ← token
    let target ← r.type false
    return { tokens := star ++ sort :: target.tokens, bareTail := target.bareTail }
  else refuseFor [ticked "const", ticked "mut"]

def referenceType (r : Rules) : Parser TypeRead := do
  let mark ← punct ['&']
  let life ← if seesLifetime (← ahead) then lifetime else pure []
  let mutable ← optionalWord "mut"
  let target ← r.type false
  return { tokens := mark ++ life ++ mutable ++ target.tokens, bareTail := target.bareTail }

/-- `dyn` and its bounds. With a star behind `dyn` the type is kept as it was written. -/
def dynType (r : Rules) (plus : Bool) : Parser TypeRead := do
  let start ← ahead
  let place := (← get).place
  let keyword ← word "dyn"
  let star ← optionalPunct ['*']
  let found ← objectBounds r plus place
  if star.isEmpty then return { tokens := keyword ++ found.tokens, bareTail := found.bareTail }
  else return { tokens := ← since start }

def implType (r : Rules) (plus : Bool) : Parser TypeRead := do
  let place := (← get).place
  let keyword ← word "impl"
  let found ← boundsFrom r plus true true ((← ahead).length + 1)
  if found.names then return { tokens := keyword ++ found.tokens, bareTail := found.bareTail }
  else throw (.refused "at least one trait must be specified" place)

/-- What is built in and called by name, kept as it was written. -/
def seesBuiltin (a : Tokens) : Bool := seesWord "builtin" a && seesPunct ['#'] (second a)

def builtin : Parser Tokens :=
  written do
    discard (word "builtin")
    discard (punct ['#'])
    discard name
    inside .paren (untilEnd do return [← token])

def typeStarts : List String :=
  [ticked "for", "parentheses", ticked "fn", ticked "unsafe", ticked "extern", "identifier",
    ticked "::", ticked "<", ticked "dyn", "square brackets", ticked "*", ticked "&", ticked "!",
    ticked "impl", ticked "_", "lifetime"]

def boundTypeStarts : List String :=
  ["identifier", ticked "fn", ticked "unsafe", ticked "extern", ticked "super", ticked "self",
    ticked "Self", ticked "crate"]

def seesPathStart (a : Tokens) : Bool :=
  seesName a || seesPlaceWord a || seesPunct pathMark a || seesPunct ['<'] a

def typeRule (r : Rules) (plus : Bool) : Parser TypeRead := do
  let start ← ahead
  let lifetimes ← boundLifetimes r
  let a ← ahead
  let isFunction := seesAnyOf ["fn", "unsafe", "extern"] a
  if !lifetimes.isEmpty && !seesName a && !isFunction && !seesPlaceWord a then
    refuseFor boundTypeStarts
  else if seesGroup .paren a then parenType r plus
  else if isFunction then functionType r lifetimes
  else if seesBuiltin a then
    discard builtin
    return { tokens := ← since start }
  else if seesPathStart a then pathType r plus lifetimes
  else if seesWord "dyn" a then dynType r plus
  else if seesGroup .bracket a then return { tokens := ← bracketType r }
  else if seesPunct ['*'] a then pointerType r
  else if seesPunct ['&'] a then referenceType r
  else if seesPunct ['!'] a && !seesPunct ['='] a then return { tokens := ← punct ['!'] }
  else if seesWord "impl" a then implType r plus
  else if seesWord "_" a then return { tokens := [← token] }
  else if seesLifetime a then
    let found ← objectBounds r true (← get).place
    return { tokens := found.tokens, bareTail := found.bareTail }
  else refuseFor typeStarts

end GoDecl.Grammar
