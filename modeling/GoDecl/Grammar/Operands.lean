import GoDecl.Grammar.Control

/-! Operands: the expressions that begin with no operator and end with no trailer. -/
namespace GoDecl.Grammar

/-- Whether an expression can begin here, behind a word that goes without one. -/
def beginsExpr (a : Tokens) : Bool :=
  let sees (symbol : List Char) (longer : List (List Char)) :=
    seesPunct symbol a && !longer.any (seesPunct · a)
  seesAnyWord a && !seesWord "as" a || seesGroup .paren a || seesGroup .bracket a ||
    seesGroup .brace a || seesLiteral a || seesBang a || sees ['-'] [['-', '='], ['-', '>']] ||
    sees ['*'] [['*', '=']] || sees ['|'] [['|', '=']] || sees ['&'] [['&', '=']] ||
    seesPunct ['.', '.'] a || sees ['<'] [['<', '='], ['<', '<', '=']] ||
    seesPunct pathMark a || seesLifetime a || seesPunct ['#'] a

/-- `return` or one of its like, with the value behind it if there is one. -/
def jumpExpr (r : Rules) (keyword : String) (label : Tokens) (mayFollow : Tokens → Bool) :
    Parser Tree := do
  let a ← ahead
  if beginsExpr a && mayFollow a then return .jumpWith keyword label (← r.expr true)
  else return .jump keyword label

/-- `break`, with a label and a value. A labelled loop as value needs parentheses. -/
def breakExpr (r : Rules) (structs : Bool) : Parser Tree := do
  discard (word "break")
  let a ← ahead
  if seesLifetime a && seesPunct [':'] (second a) then
    let place := (← get).place
    discard (r.expr true)
    throw (.refused "parentheses required" place)
  else
    let label ← if seesLifetime a then lifetime else pure []
    jumpExpr r "break" label fun a => structs || !seesGroup .brace a

def continueExpr : Parser Tokens := do
  let keyword ← word "continue"
  if seesLifetime (← ahead) then return keyword ++ (← lifetime) else return keyword

def seesClosure (a : Tokens) : Bool :=
  let b := second a
  seesPunct ['|'] a || seesWord "move" a || seesBoundLifetimes a ||
    seesWord "const" a && !seesGroup .brace b || seesWord "static" a ||
    seesWord "async" a && (seesPunct ['|'] b || seesWord "move" b)

/-- A constant block without the attributes that it opens with. -/
def bareConst : Tokens → Tokens
  | [keyword, .group .brace inner _ _] => [keyword, .wrap .brace (withoutInner inner)]
  | tokens => tokens

/-- A parameter of a closure. Attributes in front of a range group it, and those in front of a
constant block replace its own; one that is kept as it was written takes none. -/
def closureParameter (r : Rules) : Parser Tokens := do
  let attributes ← outerAttributes r
  let pattern ← r.pattern
  if seesPunct [':'] (← ahead) then
    let colon ← punct [':']
    return attributes ++ pattern.tokens ++ colon ++ (← r.typeTokens)
  else
    match pattern.form with
    | .raw => return pattern.tokens
    | .constBlock => return attributes ++ bareConst pattern.tokens
    | .range _ =>
      if attributes.isEmpty then return pattern.tokens
      else return attributes ++ [.wrap .paren pattern.tokens]
    | _ => return attributes ++ pattern.tokens

/-- A closure. A result type makes a block its body. -/
def closureExpr (r : Rules) (structs : Bool) : Parser Tree := do
  let lifetimes ← boundLifetimes r
  let constant ← optionalWord "const"
  let static ← optionalWord "static"
  let async ← optionalWord "async"
  let moves ← optionalWord "move"
  let opening ← punct ['|']
  let parameters ← listUntil (seesPunct ['|']) (closureParameter r)
  let closing ← punct ['|']
  let words := lifetimes ++ constant ++ static ++ async ++ moves
  let front := words ++ opening ++ inRow parameters ++ closing
  if seesPunct ['-', '>'] (← ahead) then
    let arrow ← punct ['-', '>']
    let result ← r.typeTokens
    return .closure (front ++ arrow ++ result) true (.other .block (← block r))
  else return .closure front false (← r.expr structs)

/-- A field in a literal with braces. A name alone stands for itself. -/
def field (r : Rules) : Parser Tokens := do
  let attributes ← outerAttributes r
  let (part, isName) ← member
  if !isName || seesPunct [':'] (← ahead) then
    let colon ← punct [':']
    return attributes ++ part :: colon ++ (← r.value)
  else return attributes ++ [part]

/-- Fields up to the end of the braces; `..` and a value may come last. -/
def fields (r : Rules) : (fuel : Nat) → Parser Tokens
  | 0 => throw .exhausted
  | fuel + 1 => do
    if ← atEnd then return []
    else if seesPunct ['.', '.'] (← ahead) then
      let dots ← punct ['.', '.']
      if ← atEnd then return dots else return dots ++ (← r.value)
    else
      let first ← field r
      if ← atEnd then return first
      let comma ← punct [',']
      return first ++ comma ++ (← fields r fuel)

/-- A path, alone, called with a bang, or with fields in braces. -/
def pathExpr (r : Rules) (structs : Bool) : Parser Tree := do
  let p ← anyPath r true
  match ← bangCall? p with
  | some call =>
    return .other (if Tree.endsInBrace call then .braceCall else .bracketCall) call
  | none =>
    if structs && seesGroup .brace (← ahead) then
      let body ← group .brace do fields r ((← ahead).length + 1)
      return .other .struct (p.tokens ++ body)
    else return p.toTree

/-- Nothing, one expression or several of them in parentheses. -/
def parenExpr (r : Rules) : Parser Tree :=
  inside .paren do
    if ← atEnd then return .other .tuple [.wrap .paren []]
    let first ← r.expr true
    if ← atEnd then return .paren first
    let comma ← punct [',']
    let rest ← exprList r
    return .other .tuple [.wrap .paren (first.tokens ++ comma ++ rest)]

/-- Elements in square brackets, or one element and the number of its copies. -/
def arrayExpr (r : Rules) : Parser Tree :=
  inside .bracket do
    if ← atEnd then return .other .array [.wrap .bracket []]
    let first ← r.value
    let a ← ahead
    if a.isEmpty then return .other .array [.wrap .bracket first]
    else if seesPunct [','] a then
      let comma ← punct [',']
      let rest ← exprList r
      return .other .array [.wrap .bracket (first ++ comma ++ rest)]
    else if seesPunct [';'] a then
      let mark ← punct [';']
      let count ← r.value
      return .other .plain [.wrap .bracket (first ++ mark ++ count)]
    else refuse "expected `,` or `;`"

def letExpr (r : Rules) (structs : Bool) : Parser Tree := do
  discard (word "let")
  let pattern ← alternativeTokens r
  discard (punct ['='])
  let first ← r.unary structs
  return .binding pattern (← r.operators first structs .compare)

def rangeDots : Parser Tokens := do
  let a ← ahead
  if seesPunct ['.', '.', '='] a then punct ['.', '.', '=']
  else if seesPunct ['.', '.', '.'] a then refuseFor [ticked "..="]
  else punct ['.', '.']

/-- Where `..` goes without an upper bound. -/
def endsSlice (structs : Bool) (a : Tokens) : Bool :=
  a.isEmpty || seesPoint a || !structs && seesGroup .brace a || seesWord "as" a ||
    [[','], [';'], ['?'], ['=', '>'], ['='], ['+'], ['/'], ['%'], ['^'], ['>'], ['<', '='],
      ['!', '='], ['-', '='], ['*', '='], ['&', '='], ['|', '='], ['<', '<', '=']].any
      (seesPunct · a)

/-- The dots of a range and its upper bound, if it has one. -/
def sliceEnd (r : Rules) (structs : Bool) : Parser (Tokens × Option Tree) := do
  let dots ← rangeDots
  if dots.length = 2 && endsSlice structs (← ahead) then return (dots, none)
  else return (dots, some (← r.operand structs .range))

def seesPathExpr (a : Tokens) : Bool :=
  seesPathStart a ||
    seesWord "try" a && (seesPunct ['!'] (second a) || seesPunct pathMark (second a))

def literal : Parser Tree := do
  match ← token with
  | .literal l _ => return .literal l
  | .word w _ => return .literal (.bool (w = "true"))
  | _ => refuse "expected literal"

def operand (r : Rules) (structs : Bool) : Parser Tree := do
  let a ← ahead
  let b := second a
  if seesLiteral a then literal
  else if seesWord "async" a &&
      (seesGroup .brace b || seesWord "move" b && seesGroup .brace (second b)) then
    let front := (← word "async") ++ (← optionalWord "move")
    return .other .plain (front ++ (← block r))
  else if seesClosure a then closureExpr r structs
  else if seesBuiltin a then return .other .raw (← builtin)
  else if seesPathExpr a then pathExpr r structs
  else if seesGroup .paren a then parenExpr r
  else if seesWord "break" a then breakExpr r structs
  else if seesWord "continue" a then return .other .plain (← continueExpr)
  else if seesWord "return" a || seesWord "yield" a then
    let keyword ← anyWord
    jumpExpr r keyword [] fun _ => true
  else if seesWord "become" a then
    return .other .raw (← written do
      discard token
      r.expr true)
  else if seesGroup .bracket a then arrayExpr r
  else if seesWord "let" a then letExpr r structs
  else if seesPunct ['.', '.'] a then
    match ← sliceEnd r structs with
    | (dots, some stop) => return .rangeTo dots stop
    | (_, none) => return .rangeAll
  else if seesWord "_" a then return .other .plain [← token]
  else
    match ← blockLike? r with
    | some e => return e
    | none => refuse "expected an expression"

end GoDecl.Grammar
