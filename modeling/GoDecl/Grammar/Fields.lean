import GoDecl.Grammar.Functions

/-! The fields of structs and the variants of enumerations. -/
namespace GoDecl.Grammar

/-- A field with a name. One named `_` may hold fields of its own, read by `inner` and kept as they
were written. -/
def namedField (r : Rules) (inner : Parser Tokens) : Parser Tokens := do
  let attributes ← outerAttributes r
  let vis ← visibility
  let unnamed := seesWord "_" (← ahead)
  let text ← if unnamed then anyWord else name
  let colon ← punct [':']
  let a ← ahead
  let type ←
    if unnamed && (seesWord "struct" a || seesWord "union" a && seesGroup .brace (second a)) then
      written do
        discard anyWord
        inner
    else r.typeTokens
  return attributes ++ vis ++ wordToken text :: colon ++ type

/-- Fields in braces, nested at most `depth` deep. -/
def fieldsToDepth (r : Rules) : (depth : Nat) → Parser Tokens
  | 0 => throw .exhausted
  | depth + 1 => group .brace (list (namedField r (fieldsToDepth r depth)))

def namedFields (r : Rules) : Parser Tokens := do
  fieldsToDepth r (Token.sizeOfAll (← ahead) + 1)

def positionalFields (r : Rules) : Parser Tokens :=
  group .paren (list do return (← outerAttributes r) ++ (← visibility) ++ (← r.typeTokens))

/-- What follows the name and parameters of a struct. Behind fields in parentheses the conditions
come last. -/
def structBody (r : Rules) : Parser Tokens := do
  let a ← ahead
  if seesWord "where" a then
    let conditions ← whereClause r
    let a ← ahead
    if seesGroup .brace a then return conditions ++ (← namedFields r)
    else if seesPunct [';'] a then return conditions ++ (← punct [';'])
    else refuseFor ["curly braces", ticked ";"]
  else if seesGroup .paren a then
    let fields ← positionalFields r
    let conditions? ← whereClause? r
    if seesPunct [';'] (← ahead) then return fields ++ conditions?.getD [] ++ (← punct [';'])
    else if conditions?.isSome then refuseFor [ticked ";"]
    else refuseFor [ticked "where", ticked ";"]
  else if seesGroup .brace a then namedFields r
  else if seesPunct [';'] a then punct [';']
  else refuseFor [ticked "where", "parentheses", "curly braces", ticked ";"]

/-- One variant of an enumeration. Its visibility means nothing and is not written back. -/
def variant (r : Rules) : Parser Tokens := do
  let attributes ← outerAttributes r
  discard visibility
  let text ← name
  let a ← ahead
  let fields ←
    if seesGroup .brace a then namedFields r
    else if seesGroup .paren a then positionalFields r
    else pure []
  let value ←
    if seesPunct ['='] (← ahead) then
      let eq ← punct ['=']
      pure (eq ++ (← r.value))
    else pure []
  return attributes ++ wordToken text :: fields ++ value

def structItem (r : Rules) : Parser Tokens := do
  let keyword ← word "struct"
  let text ← name
  let types ← typeParameters r
  return keyword ++ wordToken text :: types ++ (← structBody r)

def enumItem (r : Rules) : Parser Tokens := do
  let keyword ← word "enum"
  let text ← name
  let types ← typeParameters r
  let conditions ← whereClause r
  return keyword ++ wordToken text :: types ++ conditions ++ (← group .brace (list (variant r)))

def unionItem (r : Rules) : Parser Tokens := do
  let keyword ← word "union"
  let text ← name
  let types ← typeParameters r
  let conditions ← whereClause r
  return keyword ++ wordToken text :: types ++ conditions ++ (← namedFields r)

end GoDecl.Grammar
