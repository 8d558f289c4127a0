import GoDecl.Grammar.Tree

/-! Writing expressions back as tokens. Parentheses are added where an operand would otherwise seem
to belong to something else: to a looser operator, to the statement around it or to the braces
behind it. -/
namespace GoDecl.Grammar

structure Context where
  before : Precedence := .jump
  after : Precedence := .jump
  /-- Whether it is a statement, or the first thing in one. -/
  statement : Bool := false
  startsStatement : Bool := false
  /-- Whether it is the right side of an arm, or the first thing in one. -/
  arm : Bool := false
  startsArm : Bool := false
  /-- Whether it belongs to the head of a loop or condition, and whether it is the end of one. -/
  head : Bool := false
  endsHead : Bool := false
  /-- Whether it is the first thing in an operand that could be missing. -/
  startsOptional : Bool := false
  /-- Whether the operator behind it could begin an expression, could go on with this one, or could
  open type arguments. -/
  afterBegins : Bool := false
  afterContinues : Bool := false
  afterOpens : Bool := false

namespace Context

def ofStatement : Context := { statement := true }

def ofArm : Context := { arm := true }

def ofHead : Context := { head := true, endsHead := true }

def left (c : Context) (begins opens : Bool) (operator : Precedence) : Context :=
  { c with
    after := operator
    statement := false
    startsStatement := c.statement || c.startsStatement
    arm := false
    startsArm := c.arm || c.startsArm
    endsHead := false
    afterBegins := begins
    afterContinues := true
    afterOpens := opens }

def leftOfPoint (c : Context) : Context :=
  { c with
    after := .operand
    statement := c.statement || c.startsStatement
    startsStatement := false
    arm := c.arm || c.startsArm
    startsArm := false
    endsHead := false
    afterBegins := false
    afterContinues := true
    afterOpens := false }

def right (c : Context) (allowsStruct optional : Bool) (operator : Precedence) : Context :=
  { c with
    before := operator
    statement := false
    startsStatement := false
    arm := false
    startsArm := false
    head := c.head && !allowsStruct
    startsOptional := c.head && optional }

/-- Whether parentheses keep the expression from ending a statement, an arm or a head too early. -/
def encloses (c : Context) (e : Tree) : Bool :=
  let openAtEnd := match e.core with
    | .jump keyword _ => keyword = "break"
    | .name _ | .qualified .. | .rangeAll | .rangeFrom _ => true
    | _ => false
  let jumpsWithout := match e.core with
    | .jump keyword _ => keyword ≠ "break"
    | _ => false
  c.startsStatement && (e.isBlockLike || e.isBraceCall) ||
    (c.statement || c.startsStatement) && e.isBinding ||
    c.startsArm && e.isBlockLike ||
    c.head && e.isStruct ||
    c.endsHead && jumpsWithout ||
    c.endsHead && !c.head && openAtEnd ||
    c.startsOptional && e.isPlainBlock

/-- How tightly the expression holds together in its place. -/
def precedence (c : Context) (e : Tree) : Precedence :=
  let jumps := match e.core with
    | .jump .. => true
    | _ => false
  let goesOn := match e.core with
    | .jump .. | .jumpWith .. | .closure .. | .binding .. | .rangeAll | .rangeTo .. => true
    | _ => false
  let castsToName := match e.core with
    | .cast _ _ bareTail => bareTail
    | _ => false
  if c.afterBegins && jumps then .jump
  else if !c.afterContinues && goesOn then .unary
  else if c.afterOpens && castsToName then .jump
  else e.precedence

/-- Whether the operator in front leaves the left end of the expression alone. -/
def freeOnLeft (c : Context) (e : Tree) : Bool :=
  match e.core with
  | .assign .. => c.before.rank ≤ Precedence.assign.rank
  | .binary op _ _ =>
    if op.precedence = .assign then c.before.rank ≤ Precedence.assign.rank
    else c.before.rank < op.precedence.rank
  | .cast .. => c.before.rank < Precedence.cast.rank
  | .rangeFrom _ | .range .. => c.before.rank < Precedence.assign.rank
  | _ => true

end Context

/-- How far the operator behind an expression reaches into its right end: it is taken along, it is
left to the outside, or it does not reach at all. -/
inductive Reach where
  | fails | stops | takes
  deriving DecidableEq, Repr

/-- The right end of an expression, looked at in a context, below an operator and with two counts
of how deep it lies. -/
abbrev RightEnd := Context → Precedence → (failing stopping : Nat) → Reach

namespace Context

/-- Whether an operand below `operator` would take the operator behind it along. -/
def reach (c : Context) (operator : Precedence) : Reach :=
  let tight :=
    if operator = .assign || operator = .compare then operator.rank ≤ c.after.rank
    else operator.rank < c.after.rank
  if tight || c.after = .jump then .takes else .stops

def closedReach (c : Context) (operator : Precedence) : Reach :=
  if (c.after = .assign || c.after = .range) && operator = .range then .fails
  else if operator = .condition && c.after.rank < Precedence.condition.rank then .fails
  else c.reach operator

def endOf (c : Context) (e : Tree) (inner : RightEnd) : Precedence → Nat → Nat → Reach :=
  fun operator failing stopping =>
    if c.encloses e then c.reach operator else inner c operator failing stopping

/-- How tightly a right operand holds together. One that is looser than the operator in front of it
needs no parentheses if the operator behind it does not reach into it. -/
def rightPrecedence (c : Context) (e : Tree) (inner : RightEnd) : Precedence :=
  let own := c.precedence e
  let looser :=
    if c.before = .assign || c.before = .condition || c.before = .unary then
      own.rank < c.before.rank
    else own.rank ≤ c.before.rank
  let mayReach := c.after = .range || c.after = .or || c.after = .and || !c.afterBegins
  if looser && mayReach && c.endOf e inner c.before 1 0 ≠ .takes && c.freeOnLeft e then .unary
  else own

def leftPrecedence (c : Context) (e : Tree) (inner : RightEnd) : Precedence :=
  if (!c.afterBegins || c.after = .range) && c.endOf e inner .jump 0 0 = .stops && c.freeOnLeft e
  then .operand
  else c.precedence e

end Context

/-- What the end of a jump, closure or assignment makes of the end of its last operand. -/
def Reach.outside : Reach → Reach
  | .fails => .stops
  | _ => .takes

namespace Tree

def jumpEnd (value : Tree) (inner : RightEnd) (c : Context) (stopping : Nat) : Reach :=
  if 1 ≤ stopping then .takes else (c.endOf value inner .jump 1 1).outside

def operandEnd (e : Tree) (inner : RightEnd) (c : Context) (outer operator : Precedence)
    (own : Precedence) (failing stopping : Nat) : Reach :=
  let reach := c.reach outer
  let deep :=
    if c.after = .operand then 2 ≤ failing && (reach = .takes || 1 ≤ stopping) else 1 ≤ stopping
  if deep then .takes
  else if own = .compare && c.after = .compare then .takes
  else
    let within := c.right false false own
    let failing := if c.after = .operand then failing else 1
    match within.endOf e inner operator failing (if reach = .takes then 1 else 0) with
    | .takes => .takes
    | .stops => reach
    | .fails =>
      let rank := (within.rightPrecedence e inner).rank
      let grouped := if own = .unary then rank < own.rank else own ≠ .assign && rank ≤ own.rank
      if grouped then reach else if c.after = .operand then .fails else .stops

def rightEnd : Tree → RightEnd
  | .assign _ right, c, _, failing, stopping =>
    if (if c.after = .operand then 2 ≤ failing else 1 ≤ stopping) then .takes
    else
      let within := c.right false false .assign
      let failing := if c.after = .operand then failing else 1
      match within.endOf right right.rightEnd .assign failing 1 with
      | .fails => if c.after = .operand then .fails else .stops
      | _ => .takes
  | .binary op _ right, c, operator, failing, stopping =>
    right.operandEnd right.rightEnd c operator op.precedence op.precedence failing stopping
  | .unary _ e, c, operator, failing, stopping | .reference _ _ e, c, operator, failing, stopping =>
    e.operandEnd e.rightEnd c operator operator .unary failing stopping
  | .rangeTo _ stop, c, _, failing, _ | .range _ _ stop, c, _, failing, _ =>
    if 1 ≤ failing then .takes
    else
      let within := c.right false true .range
      let next := c.after = .assign || c.after = .range
      let found := within.endOf stop stop.rightEnd .range failing (if next then 0 else 1)
      if found = .takes || found = .stops && !next then .takes
      else if (within.rightPrecedence stop stop.rightEnd).rank ≤ Precedence.range.rank then .takes
      else .fails
  | .rangeAll, c, _, _, _ | .rangeFrom _, c, _, _, _ => if c.afterBegins then .takes else .fails
  | .jump .., c, operator, _, _ =>
    if c.after = .assign && Precedence.assign.rank < operator.rank then .fails else .takes
  | .jumpWith keyword label value, c, _, _, stopping =>
    if keyword = "break" && label.isEmpty && value.leadsWithLabel then .takes
    else value.jumpEnd value.rightEnd (c.right true (keyword = "break") .jump) stopping
  | .closure _ typed body, c, _, _, stopping =>
    if !typed || body.isPlainBlock then
      body.jumpEnd body.rightEnd (c.right false false .jump) stopping
    else .takes
  | .binding _ value, c, _, _, stopping =>
    if 1 ≤ stopping then .takes
    else
      let within := c.right false false .condition
      let loose := c.after.rank < Precedence.condition.rank
      match within.endOf value value.rightEnd .condition 1 (if loose then 0 else 1) with
      | .takes => .takes
      | found =>
        if loose then .stops
        else if (within.rightPrecedence value value.rightEnd).rank < Precedence.condition.rank then
          .takes
        else if found = .fails then .stops
        else .takes
  | .marked _ inner, c, operator, failing, stopping =>
    match inner with
    | .assign .. | .binary .. | .rangeAll | .rangeFrom _ | .rangeTo .. | .range .. =>
      c.closedReach operator
    | _ => inner.rightEnd c operator failing stopping
  | _, c, operator, _, _ => c.closedReach operator

end Tree

/-- Writes an expression in its place, with parentheses if the place asks for them. -/
def Context.write (c : Context) (e : Tree) (layout : Context → Tokens) : Tokens :=
  if c.encloses e then [.wrap .paren (layout {})] else layout c

/-- Writes an operand, with parentheses if it is too loose for its operator. -/
def Context.writeOperand (c : Context) (grouped : Bool) (e : Tree) (layout : Context → Tokens) :
    Tokens :=
  if grouped then [.wrap .paren (layout {})] else c.write e layout

/-- Operators that could also begin an expression. -/
def beginsOperand (op : BinaryOp) : Bool :=
  op ∈ [.plain .sub, .plain .mul, .and, .or, .bitAnd, .bitOr, .shl, .plain .lt]

/-- Operators that could also open type arguments. -/
def opensTypes (op : BinaryOp) : Bool := op ∈ [.shl, .plain .lt]

namespace Tree

def layout : Tree → Context → Tokens
  | .literal l, _ => [.ofLiteral l]
  | .name text, _ => [.word text {}]
  | .qualified _ tokens, _ | .other _ tokens, _ => tokens
  | .paren inner, _ => [.wrap .paren (inner.layout {})]
  | .marked attributes inner, c =>
    match inner with
    | .assign .. | .binary .. | .cast .. | .rangeAll | .rangeFrom _ | .rangeTo .. | .range .. =>
      attributes ++ [.wrap .paren (inner.layout {})]
    | _ => attributes ++ inner.layout c
  | .unary op e, c =>
    let within := c.right false false .unary
    let grouped := (within.rightPrecedence e e.rightEnd).rank < Precedence.unary.rank
    .punct op.symbol false {} :: within.writeOperand grouped e e.layout
  | .reference front _ e, c =>
    let within := c.right false false .unary
    let grouped := (within.rightPrecedence e e.rightEnd).rank < Precedence.unary.rank
    front ++ within.writeOperand grouped e e.layout
  | .binary op left right, c =>
    let own := op.precedence
    let onLeft := c.left (beginsOperand op) (opensTypes op) own
    let rank := (onLeft.leftPrecedence left left.rightEnd).rank
    let groupedLeft :=
      if own = .assign then rank ≤ Precedence.range.rank
      else if own = .compare then rank ≤ own.rank
      else rank < own.rank
    let onRight := c.right false false own
    let groupedRight :=
      own ≠ .assign && (onRight.rightPrecedence right right.rightEnd).rank ≤ own.rank
    onLeft.writeOperand groupedLeft left left.layout ++ Token.operator op.symbol ++
      onRight.writeOperand groupedRight right right.layout
  | .assign left right, c =>
    let onLeft := c.left false false .assign
    let grouped := (onLeft.leftPrecedence left left.rightEnd).rank ≤ Precedence.range.rank
    onLeft.writeOperand grouped left left.layout ++ Token.operator ['='] ++
      (c.right false false .assign).write right right.layout
  | .rangeAll, _ => Token.operator ['.', '.']
  | .rangeFrom start, c =>
    let onLeft := c.left true false .range
    let grouped := (onLeft.leftPrecedence start start.rightEnd).rank ≤ Precedence.range.rank
    onLeft.writeOperand grouped start start.layout ++ Token.operator ['.', '.']
  | .rangeTo dots stop, c =>
    let onRight := c.right false true .range
    let grouped := (onRight.rightPrecedence stop stop.rightEnd).rank ≤ Precedence.range.rank
    dots ++ onRight.writeOperand grouped stop stop.layout
  | .range start dots stop, c =>
    let onLeft := c.left true false .range
    let groupedLeft := (onLeft.leftPrecedence start start.rightEnd).rank ≤ Precedence.range.rank
    let onRight := c.right false true .range
    let groupedRight := (onRight.rightPrecedence stop stop.rightEnd).rank ≤ Precedence.range.rank
    onLeft.writeOperand groupedLeft start start.layout ++ dots ++
      onRight.writeOperand groupedRight stop stop.layout
  | .cast e type _, c =>
    let onLeft := c.left false false .cast
    let grouped := (onLeft.leftPrecedence e e.rightEnd).rank < Precedence.cast.rank
    onLeft.writeOperand grouped e e.layout ++ .word "as" {} :: type
  | .trailer sort base tokens, c =>
    let onLeft :=
      if sort = .call || sort = .index then c.left true false .operand else c.leftOfPoint
    let grouped := (onLeft.leftPrecedence base base.rightEnd).rank < Precedence.operand.rank
    onLeft.writeOperand grouped base base.layout ++ tokens
  | .jump keyword label, _ => .word keyword {} :: label
  | .jumpWith keyword label value, c =>
    let isBreak := keyword = "break"
    let within := c.right true isBreak .jump
    let grouped := isBreak && label.isEmpty && value.leadsWithLabel
    .word keyword {} :: label ++ within.writeOperand grouped value value.layout
  | .closure front _ body, c => front ++ (c.right false false .jump).write body body.layout
  | .binding pattern value, c =>
    let within := c.right false false .condition
    let grouped := (within.rightPrecedence value value.rightEnd).rank < Precedence.condition.rank
    .word "let" {} :: pattern ++ Token.operator ['='] ++
      within.writeOperand grouped value value.layout

def tokensIn (c : Context) (e : Tree) : Tokens := c.write e e.layout

def tokens (e : Tree) : Tokens := e.tokensIn {}

/-- What the evaluator is given. Attributes in front of what has a value go. -/
def toExpr : Tree → Expr
  | .literal l => .literal l
  | .name text => .name text
  | .qualified names tokens => .qualified names tokens
  | .paren inner => .paren inner.toExpr
  | .unary op operand => .unary op operand.toExpr
  | .binary op left right => .binary op left.toExpr right.toExpr
  | .marked attributes inner =>
    match inner.toExpr with
    | .other shape _ => .other shape (Tree.marked attributes inner).tokens
    | e => e
  | e => .other e.shape e.tokens

end Tree

end GoDecl.Grammar
