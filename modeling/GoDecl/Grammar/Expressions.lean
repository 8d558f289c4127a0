import GoDecl.Grammar.Operands

/-! Operators and their precedence. A binary operator reads its right operand together with all
that binds tighter; comparisons do not chain and ranges are no operands. -/
namespace GoDecl.Grammar

def binaryAhead (a : Tokens) : Option BinaryOp := BinaryOp.all.find? (seesPunct ·.symbol a)

def seesAssign (a : Tokens) : Bool := seesPunct ['='] a && !seesPunct ['=', '>'] a

/-- The precedence of what is ahead; the loosest where it is no operator. -/
def precedenceAhead (a : Tokens) : Precedence :=
  match binaryAhead a with
  | some op => op.precedence
  | none =>
    if seesAssign a then .assign
    else if seesPunct ['.', '.'] a then .range
    else if seesWord "as" a then .cast
    else .jump

/-- What may not stand right behind a conversion. -/
def refusedBehindCast? (a : Tokens) : Option String :=
  if seesPoint a then
    let b := second a
    if seesWord "await" b then some "`.await`"
    else if seesName b && (seesGroup .paren (second b) || seesPunct pathMark (second b)) then
      some "a method call"
    else some "a field access"
  else if seesPunct ['?'] a then some "`?`"
  else if seesGroup .bracket a then some "indexing"
  else if seesGroup .paren a then some "a function call"
  else none

def referenceExpr (r : Rules) (structs : Bool) : Parser Tree := do
  let mark ← punct ['&']
  let a ← ahead
  if seesWord "raw" a && seesAnyOf ["mut", "const"] (second a) then
    let words := [← token, ← token]
    return .reference (mark ++ words) true (← r.unary structs)
  else
    let mutable ← optionalWord "mut"
    return .reference (mark ++ mutable) false (← r.unary structs)

def unaryAhead (a : Tokens) : Option UnaryOp :=
  [UnaryOp.deref, .not, .neg].find? fun op => seesPunct [op.symbol] a

/-- Attributes and the operand behind them. A range takes none, and what is kept as it was written
is kept with them. -/
def attributed (start attributes : Tokens) (place : Position) (e : Tree) : Parser Tree := do
  match e with
  | .other .raw _ => return .other .raw (← since start)
  | _ =>
    if e.isRange && !attributes.isEmpty then
      throw (.refused "attributes are not allowed on range expressions starting with `..`" place)
    else return e.mark attributes

/-- An operand with the operators in front of it and the trailers behind it. -/
def unaryRule (r : Rules) (structs : Bool) : Parser Tree := do
  let start ← ahead
  let attributes ← outerAttributes r
  let a ← ahead
  if seesPunct ['&'] a then return (← referenceExpr r structs).mark attributes
  else
    match unaryAhead a with
    | some op =>
      discard (punct [op.symbol])
      return (Tree.unary op (← r.unary structs)).mark attributes
    | none =>
      let place := (← get).place
      attributed start attributes place (← trailers r (← operand r structs))

/-- Operators behind `left`, as long as they bind at least as tight as `base`. -/
def operatorsRule (r : Rules) (left : Tree) (structs : Bool) (base : Precedence) : Parser Tree := do
  let a ← ahead
  if left.isRange then return left
  else
    match binaryAhead a with
    | some op =>
      if op.precedence.rank < base.rank then return left
      else if op.precedence = .compare && left.isComparison then
        refuse "comparison operators cannot be chained"
      else
        discard (punct op.symbol)
        let right ← r.operand structs op.precedence
        r.operators (.binary op left right) structs base
    | none =>
      if base.rank ≤ Precedence.assign.rank && seesAssign a then
        discard (punct ['='])
        r.operators (.assign left (← r.operand structs .assign)) structs base
      else if base.rank ≤ Precedence.range.rank && seesPunct ['.', '.'] a then
        match ← sliceEnd r structs with
        | (dots, some stop) => return .range left dots stop
        | (_, none) => return .rangeFrom left
      else if base.rank ≤ Precedence.cast.rank && seesWord "as" a then
        discard (word "as")
        let type ← r.type false
        match refusedBehindCast? (← ahead) with
        | some what => refuse ("casts cannot be followed by " ++ what)
        | none => r.operators (.cast left type.tokens type.bareTail) structs base
      else return left

/-- Tighter operators behind a right operand. An assignment also takes assignments. -/
def operandTailRule (r : Rules) (right : Tree) (structs : Bool) (above : Precedence) :
    Parser Tree := do
  let a ← ahead
  let next := precedenceAhead a
  if above.rank < next.rank || next = .assign && above = .assign then
    let longer ← r.operators right structs next
    if (← ahead).length = a.length then return longer
    else r.operandTail longer structs above
  else return right

def operandRule (r : Rules) (structs : Bool) (above : Precedence) : Parser Tree := do
  r.operandTail (← r.unary structs) structs above

def exprRule (r : Rules) (structs : Bool) : Parser Tree := do
  r.operators (← r.unary structs) structs .jump

end GoDecl.Grammar
