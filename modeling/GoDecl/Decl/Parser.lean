import GoDecl.Decl.Basic
import GoDecl.Grammar.Reading
import GoDecl.Source.Normal

/-! Reading declarations. They follow one another with or without semicolons, so every optional
part is decided by the next token or two. -/
namespace GoDecl

open Grammar

def declarationWords : List String := ["var", "const", "func", "type", "import"]

def seesDeclarationWord : Tokens → Bool
  | .word w _ :: _ => declarationWords.contains w
  | _ => false

def seesArrow (a : Tokens) : Bool := seesPunct ['<', '-'] a

/-- Whether a type can begin here. A word that opens a declaration is none. -/
def startsType (a : Tokens) : Bool :=
  seesGroup .paren a || seesGroup .bracket a || seesPunct ['*'] a || seesArrow a ||
    seesAnyWord a && !seesDeclarationWord a

def require (sees : Tokens → Bool) (complaint : String) : Parser Tokens := do
  if sees (← ahead) then return [← token] else refuse complaint

def optionalToken (sees : Tokens → Bool) : Parser Tokens := do
  if sees (← ahead) then return [← token] else return []

def arrow : Parser Tokens := return [← token, ← token]

/-- A type name, perhaps qualified, perhaps with type arguments. -/
def namedType : Parser Tokens := do
  let a ← ahead
  if !seesAnyWord a || seesDeclarationWord a then refuse "expected a type"
  else
    let base ← token
    let qualified ←
      if seesPunct ['.'] (← ahead) then
        let point ← token
        pure (point :: (← require seesAnyWord "expected a type name after `.`"))
      else pure []
    return base :: qualified ++ (← optionalToken (seesGroup .bracket))

mutual
def typeTokens : (fuel : Nat) → Parser Tokens
  | 0 => throw .exhausted
  | fuel + 1 => do
    let a ← ahead
    if seesGroup .paren a then return [← token]
    else if seesGroup .bracket a || seesPunct ['*'] a then
      let front ← token
      return front :: (← typeTokens fuel)
    else if seesArrow a then
      let front ← arrow
      return front ++ (← typeTokens fuel)
    else if seesWord "map" a then
      let front ← token
      let key ← require (seesGroup .bracket) "expected `[` after `map`"
      return front :: key ++ (← typeTokens fuel)
    else if seesWord "chan" a then
      let front ← token
      let direction ← if seesArrow (← ahead) then arrow else pure []
      return front :: direction ++ (← typeTokens fuel)
    else if seesWord "func" a then
      let front ← token
      return front :: (← signature fuel)
    else if seesWord "struct" a || seesWord "interface" a then
      let front ← token
      return front :: (← require (seesGroup .brace) "expected `\x7b`")
    else namedType
def signature : (fuel : Nat) → Parser Tokens
  | 0 => throw .exhausted
  | fuel + 1 => do
    let parameters ← require (seesGroup .paren) "expected a parameter list"
    let a ← ahead
    if seesGroup .paren a then return parameters ++ [← token]
    else if startsType a then return parameters ++ (← typeTokens fuel)
    else return parameters
end

/-- Every call on the way through a type takes a token. -/
def typeFuel : Parser Nat := return 2 * (← ahead).length + 2

def declaredType : Parser Tokens := do typeTokens (← typeFuel)

def TypeExpr.ofTokens : List Token → TypeExpr
  | [.word text _] => .name text
  | tokens => .composite tokens

def commaItems {α : Type} (item : Parser α) : (fuel : Nat) → Parser (List α)
  | 0 => throw .exhausted
  | fuel + 1 => do
    if seesPunct [','] (← ahead) then
      discard token
      let first ← item
      return first :: (← commaItems item fuel)
    else return []

def commaList {α : Type} (item : Parser α) : Parser (List α) := do
  let first ← item
  return first :: (← commaItems item ((← ahead).length + 1))

/-- Names, an optional type and optional initialisers; one of the latter two is required. Right
behind the names, `func` can only open a type. -/
def valueSpec : Parser ValueSpec := do
  let names ← commaList anyWord
  let a ← ahead
  let type ←
    if startsType a || seesWord "func" a then pure (some (TypeExpr.ofTokens (← declaredType)))
    else pure none
  let values ←
    if seesPunct ['='] (← ahead) then
      discard token
      commaList expression
    else pure []
  if type.isNone && values.isEmpty then refuse "expected a type or `=` after the declared names"
  else return { names, type, values }

/-- Items up to the end of the group, with any number of semicolons around each. -/
def itemsFrom {α : Type} (item : Parser α) : (fuel : Nat) → Parser (List α)
  | 0 => throw .exhausted
  | fuel + 1 => do
    if ← atEnd then return []
    else if seesPunct [';'] (← ahead) then
      discard token
      itemsFrom item fuel
    else
      let first ← item
      return first :: (← itemsFrom item fuel)

def items {α : Type} (item : Parser α) : Parser (List α) := do
  itemsFrom item ((← ahead).length + 1)

def valueSpecs : Parser (List ValueSpec) := do
  if seesGroup .paren (← ahead) then inside .paren (items valueSpec) else return [← valueSpec]

/-- What follows `func`: a receiver, a name, type parameters, a signature and a body. -/
def funcTokens : Parser Tokens := do
  let receiver ← optionalToken (seesGroup .paren)
  let name ← require seesAnyWord "expected a function name"
  let types ← optionalToken (seesGroup .bracket)
  let head ← signature (← typeFuel)
  let body ← require (seesGroup .brace) "expected a function body"
  return receiver ++ name ++ types ++ head ++ body

/-- What follows `type`: a group, or a name and its type. Type parameters read as the length of an
array, which is also one group. -/
def typeDeclTokens : Parser Tokens := do
  if seesGroup .paren (← ahead) then return [← token]
  else
    let name ← require seesAnyWord "expected a type name"
    let equals ← optionalToken (seesPunct ['='])
    return name ++ equals ++ (← declaredType)

def importTokens : Parser Tokens := do
  let a ← ahead
  if seesGroup .paren a then return [← token]
  else
    let name ← if seesString a then pure [] else pure [← token]
    return name ++ (← require seesString "expected an import path")

def topDeclaration : Parser Declaration := do
  match ← ahead with
  | .word "var" _ :: _ => discard token; return .value .var (← valueSpecs)
  | .word "const" _ :: _ => discard token; return .value .const (← valueSpecs)
  | .word "func" _ :: _ => discard token; return .skipped .func (← funcTokens)
  | .word "type" _ :: _ => discard token; return .skipped .type (← typeDeclTokens)
  | .word "import" _ :: _ => discard token; return .skipped .imports (← importTokens)
  | _ => refuseFor (declarationWords.map ticked)

def Declaration.readAll (tokens : Tokens) : Except Fault (List Declaration) :=
  Grammar.readAll (items topDeclaration) tokens

/-- The declarations of a source. Places are those of its normal form, which differs from the
source within lines only. -/
def Declaration.parse (source : String) : Except ParseError (List Declaration) :=
  readText (items topDeclaration) (Source.normal source.toList) source.toList

end GoDecl
