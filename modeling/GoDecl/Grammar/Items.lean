import GoDecl.Grammar.Members

/-! Declarations among statements and in modules. -/
namespace GoDecl.Grammar

/-- The parts of a group behind `use`; `formed` says that there was a form for all so far. -/
def useParts (r : Rules) (rooted formed : Bool) : (fuel : Nat) → Parser (Option Tokens)
  | 0 => throw .exhausted
  | fuel + 1 => do
    if ← atEnd then return if formed then some [] else none
    let root ← if rooted then optionalPunct pathMark else pure []
    let part? ← r.useTree (rooted && root.isEmpty)
    let formed := formed && root.isEmpty && part?.isSome
    let part := part?.getD []
    if ← atEnd then return if formed then some part else none
    let comma ← punct [',']
    return (← useParts r rooted formed fuel).map (part ++ comma ++ ·)

/-- What `use` names: a path, everything in one, or several parts of one. -/
def useTreeRule (r : Rules) (rooted : Bool) : Parser (Option Tokens) := do
  let a ← ahead
  if seesName a || seesAnyOf ["self", "super", "crate", "try"] a then
    let first ← token
    let a ← ahead
    if seesPunct pathMark a then
      let mark ← punct pathMark
      return (← r.useTree false).map (first :: mark ++ ·)
    else if seesWord "as" a then
      let as ← word "as"
      let a ← ahead
      if seesName a || seesWord "_" a then return some (first :: as ++ [← token])
      else refuse "expected identifier or underscore"
    else return some [first]
  else if seesPunct ['*'] a then return some (← punct ['*'])
  else if seesGroup .brace a then
    let inner? ← inside .brace do useParts r rooted true ((← ahead).length + 1)
    return inner?.map fun inner => [.wrap .brace inner]
  else
    refuseFor ["identifier", ticked "self", ticked "super", ticked "crate", ticked "try",
      ticked "*", "curly braces"]

def useItem (r : Rules) : Parser (Option Tokens) := do
  let keyword ← word "use"
  let root ← optionalPunct pathMark
  let tree? ← r.useTree root.isEmpty
  let semicolon ← punct [';']
  return tree?.map fun tree => keyword ++ root ++ tree ++ semicolon

def externCrate : Parser Tokens := do
  let front := (← word "extern") ++ (← word "crate")
  let text ← if seesWord "self" (← ahead) then anyWord else name
  let renamed ←
    if seesWord "as" (← ahead) then
      let as ← word "as"
      let label ← if seesWord "_" (← ahead) then anyWord else name
      pure (as ++ [wordToken label])
    else pure []
  return front ++ wordToken text :: renamed ++ (← punct [';'])

/-- A foreign block. It takes no visibility, which is complained about at `place`. -/
def foreignBlock (r : Rules) (vis : Tokens) (place : Position) : Parser Tokens := do
  if vis.isEmpty then
    let safety ← optionalWord "unsafe"
    let convention ← abi
    return safety ++ convention ++ (← members r (foreignMember r))
  else throw (.refused "expected `extern`" place)

/-- What follows `extern` where no function does. -/
def externItem (r : Rules) (vis : Tokens) (place : Position) : Parser Tokens := do
  let b := second (← ahead)
  if seesWord "crate" b then return vis ++ (← externCrate)
  else if seesGroup .brace b then foreignBlock r vis place
  else if seesString b then
    if seesGroup .brace (second b) then foreignBlock r vis place
    else
      discard abi
      refuseFor ["curly braces"]
  else
    discard (word "extern")
    refuseFor [ticked "crate", "curly braces", "string literal"]

/-- A variable of the program. One without a type or without a value is kept as it was written. -/
def staticItem (r : Rules) : Parser (Option Tokens) := do
  let keyword ← word "static"
  let mutable ← optionalWord "mut"
  let text ← name
  if seesPunct ['='] (← ahead) then
    discard (punct ['='])
    discard r.value
    discard (punct [';'])
    return none
  else
    let colon ← punct [':']
    let type ← r.typeTokens
    if seesPunct [';'] (← ahead) then
      discard (punct [';'])
      return none
    else
      let eq ← punct ['=']
      let value ← r.value
      let semicolon ← punct [';']
      let front := keyword ++ mutable ++ wordToken text :: colon
      return some (front ++ type ++ eq ++ value ++ semicolon)

/-- A module: its declarations in braces, or a semicolon where they are elsewhere. -/
def moduleItem (r : Rules) : Parser Tokens := do
  let safety ← optionalWord "unsafe"
  let keyword ← word "mod"
  let text ← if seesWord "try" (← ahead) then anyWord else name
  let front := safety ++ keyword ++ [wordToken text]
  let a ← ahead
  if seesPunct [';'] a then return front ++ (← punct [';'])
  else if seesGroup .brace a then
    let inner : Parser Tokens := do
      let start ← ahead
      r.item start (← outerAttributes r)
    return front ++ (← members r inner)
  else refuseFor [ticked ";", "curly braces"]

/-- What follows the name and parameters of a trait. -/
def traitBody (r : Rules) : Parser Tokens := do
  let colon ← optionalPunct [':']
  let stop (a : Tokens) := seesWord "where" a || seesGroup .brace a
  let bounds ←
    if colon.isEmpty then pure []
    else boundsUntil stop (parameterBound r) ((← ahead).length + 1)
  let conditions ← whereClause r
  let body ← members r (traitMember r)
  return (if bounds.isEmpty then [] else colon ++ bounds) ++ conditions ++ body

/-- A trait, or another name for several of them. -/
def traitItem (r : Rules) : Parser Tokens := do
  let safety ← optionalWord "unsafe"
  let auto ← optionalWord "auto"
  let keyword ← word "trait"
  let text ← name
  let types ← typeParameters r
  let front := safety ++ auto ++ keyword ++ wordToken text :: types
  let a ← ahead
  if !(safety ++ auto).isEmpty then return front ++ (← traitBody r)
  else if seesGroup .brace a || seesPunct [':'] a || seesWord "where" a then
    return front ++ (← traitBody r)
  else if seesPunct ['='] a then
    let eq ← punct ['=']
    let stop (a : Tokens) := seesWord "where" a || seesPunct [';'] a
    let bound : Parser Tokens := do return (← r.bound false false).tokens
    let bounds ← boundsUntil stop bound ((← ahead).length + 1)
    let conditions ← whereClause r
    return front ++ eq ++ bounds ++ conditions ++ (← punct [';'])
  else refuseFor ["curly braces", ticked ":", ticked "where", ticked "="]

/-- An implementation. One that is constant or for something else than a path has no form. -/
def implItem (r : Rules) : Parser (Option Tokens) := do
  let default ← optionalWord "default"
  let safety ← optionalWord "unsafe"
  let keyword ← word "impl"
  let types ← if opensParameters (← ahead) then typeParameters r else pure []
  let a ← ahead
  let isConst := seesWord "const" a || seesPunct ['?'] a && seesWord "const" (second a)
  if isConst then
    discard (optionalPunct ['?'])
    discard (word "const")
  let a ← ahead
  let place := (← get).place
  let negative ←
    if seesPunct ['!'] a && !seesGroup .brace (second a) then punct ['!'] else pure []
  let first ← r.type true
  let isPath := match first.form with
    | .path _ => true
    | _ => false
  let isFor := seesWord "for" (← ahead)
  let subject ←
    if isFor then
      let joint ← word "for"
      pure (negative ++ first.tokens ++ joint ++ (← r.typeTokens))
    else if negative.isEmpty then pure first.tokens
    else throw (.refused "inherent impls cannot be negative" place)
  let conditions ← whereClause r
  let body ← members r (implMember r)
  if isConst || isFor && !isPath then return none
  else return some (default ++ safety ++ keyword ++ types ++ subject ++ conditions ++ body)

/-- A declaration with `macro`, which has no form. -/
def macroItem : Parser Unit := do
  discard (word "macro")
  discard name
  let a ← ahead
  if seesGroup .paren a then
    discard token
    if seesGroup .brace (← ahead) then discard token else refuseFor ["curly braces"]
  else if seesGroup .brace a then discard token
  else refuseFor ["parentheses", "curly braces"]

/-- A function; one without a body has no form. -/
def functionItem (r : Rules) : Parser (Option Tokens) := do
  let front ← signature r
  if seesPunct [';'] (← ahead) then
    discard (punct [';'])
    return none
  else return some (front ++ (← functionBody r))

/-- What a declaration may begin with, for messages. A word that is there already is not asked
for. -/
def itemStarts (named : Bool) (a : Tokens) : List String :=
  let words := ["fn", "extern", "use", "static", "const", "unsafe", "mod", "type", "struct", "enum",
    "union", "trait", "auto", "impl", "default", "macro"]
  (words.filter (!seesWord · a)).map ticked ++ if named then bangItemStarts else []

/-- A declaration behind its attributes. -/
def itemRule (r : Rules) (start attributes : Tokens) : Parser Tokens := do
  let place := (← get).place
  let vis ← visibility
  let a ← ahead
  let b := second a
  let finish (tokens : Tokens) : Parser Tokens := return attributes ++ vis ++ tokens
  let finish? (form : Option Tokens) : Parser Tokens :=
    formOr start (form.map fun tokens => attributes ++ vis ++ tokens)
  if seesFunction false a then finish? (← functionItem r)
  else if seesWord "extern" a then return attributes ++ (← externItem r vis place)
  else if seesWord "use" a then finish? (← useItem r)
  else if seesWord "static" a then finish? (← staticItem r)
  else if seesWord "const" a then
    let keyword ← word "const"
    let found ← constItem r
    finish? (if found.hasValue && !found.isGeneric then some (keyword ++ found.tokens) else none)
  else if seesWord "unsafe" a then
    if seesWord "trait" b || seesWord "auto" b && seesWord "trait" (second b) then
      finish (← traitItem r)
    else if seesWord "impl" b then
      let form? ← implItem r
      finish? (if vis.isEmpty then form? else none)
    else if seesWord "extern" b then return attributes ++ (← foreignBlock r vis place)
    else if seesWord "mod" b then finish (← moduleItem r)
    else
      discard (word "unsafe")
      refuseFor (["trait"] ++ (if seesWord "auto" b then [] else ["auto"]) ++
        ["impl", "extern", "mod"] |>.map ticked)
  else if seesWord "mod" a then finish (← moduleItem r)
  else if seesWord "type" a then
    let t ← typeItem r .beforeValue
    if t.hasColon || t.value.isEmpty then since start
    else finish (t.front ++ t.types ++ t.conditions ++ t.value ++ t.semicolon)
  else if seesWord "struct" a then finish (← structItem r)
  else if seesWord "enum" a then finish (← enumItem r)
  else if seesWord "union" a && seesName b then finish (← unionItem r)
  else if seesWord "trait" a || seesWord "auto" a && seesWord "trait" b then finish (← traitItem r)
  else if seesWord "impl" a || seesWord "default" a && !seesPunct ['!'] b then
    let form? ← implItem r
    finish? (if vis.isEmpty then form? else none)
  else if seesWord "macro" a then
    macroItem
    since start
  else if vis.isEmpty && seesBangItem a then finish (← bangItem true)
  else refuseFor (itemStarts vis.isEmpty a)

end GoDecl.Grammar
