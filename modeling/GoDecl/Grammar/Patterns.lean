import GoDecl.Grammar.Trailers
import GoDecl.Grammar.Types

/-! Patterns: what stands in front of the equals sign of `let`, in the arms of `match` and in the
heads of closures and loops. -/
namespace GoDecl.Grammar

def seesBar (a : Tokens) : Bool :=
  seesPunct ['|'] a && !seesPunct ['|', '|'] a && !seesPunct ['|', '='] a

/-- A pattern and its alternatives; a bar may stand in front of the first. -/
def alternativePatterns (r : Rules) : Parser PatternRead := do
  let bar ← optionalPunct ['|']
  let first ← r.pattern
  let others ← manyWhile seesBar do return (← punct ['|']) ++ (← r.pattern).tokens
  if bar.isEmpty && others.isEmpty then return first
  else return { tokens := bar ++ first.tokens ++ others }

def alternativeTokens (r : Rules) : Parser Tokens := return (← alternativePatterns r).tokens

/-- The dots of a range behind its lower bound. Three dots are an old way to write `..=`. -/
def oldRangeDots : Parser Tokens := do
  let a ← ahead
  if seesPunct ['.', '.', '='] a then punct ['.', '.', '=']
  else if seesPunct ['.', '.', '.'] a then
    discard (punct ['.', '.', '.'])
    return Token.operator ['.', '.', '=']
  else punct ['.', '.']

/-- Where a range may go without its upper bound. -/
def endsRange (a : Tokens) : Bool :=
  a.isEmpty || seesPunct ['|'] a || seesPunct ['='] a || seesColon a || seesPunct [','] a ||
    seesPunct [';'] a || seesWord "if" a

def rangeBound (r : Rules) : Parser Tokens := do
  let a ← ahead
  if endsRange a then return []
  else if seesLiteral a then literalTokens
  else if seesPathStart a then return (← anyPath r true).tokens
  else if seesWord "const" a then return (← word "const") ++ (← attributedBlock r)
  else
    refuseFor ["literal", "identifier", ticked "::", ticked "<", ticked "self", ticked "Self",
      ticked "super", ticked "crate", ticked "const"]

/-- A range from its dots on. Only `..` may go without an upper bound. -/
def rangePattern (r : Rules) (low : Tokens) (place : Position) (dots : Tokens) :
    Parser PatternRead := do
  let high ← rangeBound r
  if high.isEmpty && dots.length = 3 then refuse "expected range upper bound"
  else if high.isEmpty && low.isEmpty then return { tokens := dots, form := .rest }
  else
    let missing := if high.isEmpty || low.isEmpty then some place else none
    return { tokens := low ++ dots ++ high, form := .range missing }

def rangeBehind (r : Rules) (low : Tokens) : Parser PatternRead := do
  let place := (← get).place
  rangePattern r low place (← oldRangeDots)

def fieldPattern (r : Rules) : Parser Tokens := do
  let start ← ahead
  let boxed ← optionalWord "box"
  let byRef ← optionalWord "ref"
  let mutable ← optionalWord "mut"
  if boxed.isEmpty && byRef.isEmpty && mutable.isEmpty then
    let (part, isName) ← member
    if !isName || seesPunct [':'] (← ahead) then
      let colon ← punct [':']
      return part :: colon ++ (← alternativeTokens r)
    else return [part]
  else
    let field ← name
    if boxed.isEmpty then return byRef ++ mutable ++ [wordToken field] else since start

/-- Fields up to the end of the braces. Two dots for all other fields come last. -/
def fieldPatterns (r : Rules) : (fuel : Nat) → Parser Tokens
  | 0 => throw .exhausted
  | fuel + 1 => do
    if ← atEnd then return []
    let attributes ← outerAttributes r
    if seesPunct ['.', '.'] (← ahead) then return attributes ++ (← punct ['.', '.'])
    else
      let first ← fieldPattern r
      if ← atEnd then return attributes ++ first
      let comma ← punct [',']
      return attributes ++ first ++ comma ++ (← fieldPatterns r fuel)

def pathPattern (r : Rules) : Parser PatternRead := do
  let p ← anyPath r true
  match ← bangCall? p with
  | some call => return { tokens := call }
  | none =>
    let a ← ahead
    if seesGroup .brace a then
      let fields ← group .brace do fieldPatterns r ((← ahead).length + 1)
      return { tokens := p.tokens ++ fields }
    else if seesGroup .paren a then
      return { tokens := p.tokens ++ (← group .paren (list (alternativeTokens r))) }
    else if seesPunct ['.', '.'] a then rangeBehind r p.tokens
    else return { tokens := p.tokens }

/-- A name that is bound, perhaps to what a further pattern matches. -/
def namePattern (r : Rules) : Parser Tokens := do
  let byRef ← optionalWord "ref"
  let mutable ← optionalWord "mut"
  let bound ← if seesWord "self" (← ahead) then anyWord else name
  let rest ←
    if seesPunct ['@'] (← ahead) then
      let mark ← punct ['@']
      pure (mark ++ (← r.pattern).tokens)
    else pure []
  return byRef ++ mutable ++ wordToken bound :: rest

def literalPattern (r : Rules) : Parser PatternRead := do
  let isConst := seesWord "const" (← ahead)
  let low ← rangeBound r
  if seesPunct ['.', '.'] (← ahead) then rangeBehind r low
  else return { tokens := low, form := if isConst then .constBlock else .other }

/-- A range without a lower bound, or two dots that stand for the rest. -/
def openRangePattern (r : Rules) : Parser PatternRead := do
  let place := (← get).place
  let dots ←
    if seesPunct ['.', '.', '='] (← ahead) then punct ['.', '.', '='] else punct ['.', '.']
  rangePattern r [] place dots

def referencePattern (r : Rules) : Parser Tokens := do
  let mark ← punct ['&']
  let mutable ← optionalWord "mut"
  return mark ++ mutable ++ (← r.pattern).tokens

/-- An element of a pattern in square brackets. A range without one of its ends would be mistaken
for the rest. -/
def elementPattern (r : Rules) : Parser Tokens := do
  let found ← alternativePatterns r
  match found.form with
  | .range (some place) =>
    throw (.refused "range pattern is not allowed unparenthesized inside slice pattern" place)
  | _ => return found.tokens

/-- What a pattern may begin with, for messages; `dots` says whether two dots are among it. -/
def patternStarts (dots : Bool) : List String :=
  ["identifier", ticked "::", ticked "<", ticked "_", "literal", ticked "const", ticked "ref",
    ticked "mut", ticked "&", "parentheses", "square brackets"] ++
    (if dots then [ticked ".."] else []) ++ [ticked "const"]

/-- Whether what follows a name makes it a path rather than a name that is bound. -/
def followsPath (a : Tokens) : Bool :=
  seesPunct pathMark a || seesPunct ['!'] a || seesGroup .brace a || seesGroup .paren a ||
    seesPunct ['.', '.'] a

def patternRule (r : Rules) : Parser PatternRead := do
  let a ← ahead
  if seesName a && followsPath (second a) ||
      seesWord "self" a && seesPunct pathMark (second a) ||
      seesPunct pathMark a || seesPunct ['<'] a || seesAnyOf ["Self", "super", "crate"] a then
    pathPattern r
  else if seesWord "_" a then return { tokens := [← token] }
  else if seesWord "box" a then
    let tokens ← written do
      discard token
      r.pattern
    return { tokens, form := .raw }
  else if seesPunct ['-'] a || seesLiteral a || seesWord "const" a then literalPattern r
  else if seesAnyOf ["ref", "mut", "self"] a || seesName a then
    return { tokens := ← namePattern r }
  else if seesPunct ['&'] a then return { tokens := ← referencePattern r }
  else if seesGroup .paren a then
    return { tokens := ← group .paren (list (alternativeTokens r)) }
  else if seesGroup .bracket a then
    return { tokens := ← group .bracket (list (elementPattern r)) }
  else if seesPunct ['.', '.'] a && !seesPunct ['.', '.', '.'] a then openRangePattern r
  else refuseFor (patternStarts (!seesPunct ['.', '.'] a))

end GoDecl.Grammar
