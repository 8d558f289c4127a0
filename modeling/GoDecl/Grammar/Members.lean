import GoDecl.Grammar.Fields

/-! What the bodies of traits, implementations and foreign blocks hold. What has no form to write it
back in is kept as it was written. -/
namespace GoDecl.Grammar

/-- The tokens of a form, or what was taken since `start` where there is none. -/
def formOr (start : Tokens) (form : Option Tokens) : Parser Tokens := do
  match form with
  | some tokens => return tokens
  | none => since start

/-- A call with a bang in the place of a declaration; `named` says that a name may follow the bang.
A group that is no block needs a semicolon. -/
def bangItem (named : Bool) : Parser Tokens := do
  let path ← namePath
  let bang ← punct ['!']
  let a ← ahead
  let label ← if named && (seesName a || seesWord "try" a) then pure [← token] else pure []
  let body ← anyGroup
  let front := path ++ bang ++ label ++ [body]
  match body with
  | .group .brace .. => return front
  | _ => return front ++ (← punct [';'])

def seesBangItem (a : Tokens) : Bool :=
  seesName a || seesAnyOf ["self", "super", "crate"] a || seesPunct pathMark a

/-- What a call with a bang may begin with, for messages. -/
def bangItemStarts : List String :=
  ["identifier", ticked "self", ticked "super", ticked "crate", ticked "::"]

/-- Where the conditions of a type declaration may stand. -/
inductive ConditionPlace where
  | beforeValue | afterValue | both
  deriving DecidableEq

/-- The parts of a type declaration behind its visibility. -/
structure TypeItem where
  front : Tokens
  types : Tokens
  hasColon : Bool
  bounds : Tokens
  value : Tokens
  conditions : Tokens
  semicolon : Tokens

/-- Bounds that are parted by `+` up to where `stop` holds. -/
def boundsUntil (stop : Tokens → Bool) (item : Parser Tokens) : (fuel : Nat) → Parser Tokens
  | 0 => throw .exhausted
  | fuel + 1 => do
    if stop (← ahead) then return []
    let first ← item
    if stop (← ahead) then return first
    let plus ← punct ['+']
    return first ++ plus ++ (← boundsUntil stop item fuel)

def typeItem (r : Rules) (place : ConditionPlace) : Parser TypeItem := do
  let keyword ← word "type"
  let text ← name
  let types ← typeParameters r
  let colon ← optionalPunct [':']
  let stop (a : Tokens) := seesWord "where" a || seesPunct ['='] a || seesPunct [';'] a
  let bounds ←
    if colon.isEmpty then pure []
    else boundsUntil stop (parameterBound r) ((← ahead).length + 1)
  let before? ← if place = .afterValue then pure none else whereClause? r
  let eq ← optionalPunct ['=']
  let value ← if eq.isEmpty then pure [] else pure (eq ++ (← r.typeTokens))
  let after? ←
    if place = .beforeValue || before?.isSome then pure none else whereClause? r
  let semicolon ← punct [';']
  return {
    front := keyword ++ [wordToken text]
    types
    hasColon := !colon.isEmpty
    bounds := if bounds.isEmpty then [] else colon ++ bounds
    value
    conditions := (before? <|> after?).getD []
    semicolon }

/-- A constant behind its keyword: a name, a type and perhaps a value. The flag says that it has
parameters or conditions, for which there is no form. -/
structure ConstItem where
  tokens : Tokens
  hasValue : Bool
  isGeneric : Bool

def constName : Parser Token := do
  let a ← ahead
  if seesName a || seesWord "_" a then token else refuseFor ["identifier", ticked "_"]

def constItem (r : Rules) : Parser ConstItem := do
  let text ← constName
  let isOpen := seesPunct ['<'] (← ahead)
  let types ← typeParameters r
  let colon ← punct [':']
  let type ← r.typeTokens
  let eq ← optionalPunct ['=']
  let value ← if eq.isEmpty then pure [] else r.value
  let conditions? ← whereClause? r
  let semicolon ← punct [';']
  return {
    tokens := text :: types ++ colon ++ type ++ eq ++ value ++ semicolon
    hasValue := !eq.isEmpty
    isGeneric := isOpen || conditions?.isSome }

/-- The body of a function. -/
def functionBody (r : Rules) : Parser Tokens := attributedBlock r

/-- A member of a trait. -/
def traitMember (r : Rules) : Parser Tokens := do
  let start ← ahead
  let attributes ← outerAttributes r
  let vis ← visibility
  let default ← optionalWord "default"
  let plain := vis.isEmpty && default.isEmpty
  let finish (form : Option Tokens) : Parser Tokens :=
    formOr start (if plain then form.map (attributes ++ ·) else none)
  let a ← ahead
  let b := second a
  if seesFunction false a ||
      seesWord "const" a && seesAnyOf ["async", "unsafe", "extern", "fn"] b then
    let front ← signature r
    let a ← ahead
    if seesGroup .brace a then finish (some (front ++ (← functionBody r)))
    else if seesPunct [';'] a then finish (some (front ++ (← punct [';'])))
    else refuseFor ["curly braces", ticked ";"]
  else if seesWord "const" a then
    let keyword ← word "const"
    let a ← ahead
    if seesName a || seesWord "_" a then
      let found ← constItem r
      finish (if found.isGeneric then none else some (keyword ++ found.tokens))
    else
      refuseFor ["identifier", ticked "_", ticked "async", ticked "unsafe", ticked "extern",
        ticked "fn"]
  else if seesWord "type" a then
    let t ← typeItem r .afterValue
    finish (some (t.front ++ t.types ++ t.bounds ++ t.value ++ t.conditions ++ t.semicolon))
  else if plain && seesBangItem a then finish (some (← bangItem false))
  else
    refuseFor ([ticked "fn", ticked "const", ticked "type"] ++
      if plain then bangItemStarts else [])

/-- A member of an implementation. -/
def implMember (r : Rules) : Parser Tokens := do
  let start ← ahead
  let attributes ← outerAttributes r
  let vis ← visibility
  let a ← ahead
  let wanted := if seesWord "default" a then [] else [ticked "default"]
  let isDefault := seesWord "default" a && !seesPunct ['!'] (second a)
  let default ← if isDefault then word "default" else pure []
  let front := attributes ++ vis ++ default
  let plain := vis.isEmpty && !isDefault
  let a ← ahead
  if seesFunction false a then
    let found ← signature r
    if seesPunct [';'] (← ahead) then
      discard (punct [';'])
      since start
    else return front ++ found ++ (← functionBody r)
  else if seesWord "const" a then
    let keyword ← word "const"
    let found ← constItem r
    if found.hasValue && !found.isGeneric then return front ++ keyword ++ found.tokens
    else since start
  else if seesWord "type" a then
    let t ← typeItem r .afterValue
    if t.hasColon || t.value.isEmpty then since start
    else return front ++ t.front ++ t.types ++ t.value ++ t.conditions ++ t.semicolon
  else if plain && seesBangItem a then return front ++ (← bangItem false)
  else
    refuseFor (wanted ++ [ticked "fn", ticked "const", ticked "type"] ++
      if plain then bangItemStarts else [])

/-- A member of a foreign block. -/
def foreignMember (r : Rules) : Parser Tokens := do
  let start ← ahead
  let attributes ← outerAttributes r
  let vis ← visibility
  let a ← ahead
  let front := attributes ++ vis
  if seesFunction true a then
    let found? ← signature? r true
    if seesGroup .brace (← ahead) then
      discard (attributedBlock r)
      since start
    else
      let semicolon ← punct [';']
      formOr start (found?.map (front ++ · ++ semicolon))
  else if seesWord "static" a ||
      (seesWord "unsafe" a || seesWord "safe" a) && seesWord "static" (second a) then
    let safety ← if seesWord "static" a then pure [] else pure [← token]
    let keyword ← word "static"
    let mutable ← optionalWord "mut"
    let text ← name
    let colon ← punct [':']
    let type ← r.typeTokens
    let eq ← optionalPunct ['=']
    if !eq.isEmpty then discard r.value
    let semicolon ← punct [';']
    if safety.isEmpty && eq.isEmpty then
      return front ++ keyword ++ mutable ++ wordToken text :: colon ++ type ++ semicolon
    else since start
  else if seesWord "type" a then
    let t ← typeItem r .both
    if t.hasColon || !t.value.isEmpty then since start
    else return front ++ t.front ++ t.types ++ t.conditions ++ t.semicolon
  else if vis.isEmpty && seesBangItem a then return front ++ (← bangItem false)
  else
    refuseFor ([ticked "fn", ticked "static", ticked "type"] ++
      if vis.isEmpty then bangItemStarts else [])

/-- Braces that may open with attributes of what they belong to, and members in them. -/
def members (r : Rules) (member : Parser Tokens) : Parser Tokens :=
  group .brace do return (← innerAttributes r) ++ (← untilEnd member)

end GoDecl.Grammar
