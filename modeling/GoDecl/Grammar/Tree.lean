import GoDecl.Expr.Basic
import GoDecl.Grammar.Cursor

/-! Expressions as they are read. Of what stands in brackets only the tokens are kept; the rest is
a tree, because the way it is written back depends on what stands around it. -/
namespace GoDecl.Grammar

inductive Trailer where
  | call | index | part | method | await | question
  deriving DecidableEq, Repr

inductive Tree where
  | literal (l : Literal)
  | name (text : String)
  | qualified (names : List String) (tokens : Tokens)
  | paren (inner : Tree)
  /-- Attributes in front of an expression are written back and mean nothing. -/
  | marked (attributes : Tokens) (inner : Tree)
  | unary (op : UnaryOp) (operand : Tree)
  /-- `&` and the words behind it; `raw` says that the address is a raw one. -/
  | reference (front : Tokens) (raw : Bool) (operand : Tree)
  | binary (op : BinaryOp) (left right : Tree)
  | assign (left right : Tree)
  | rangeAll
  | rangeFrom (start : Tree)
  | rangeTo (dots : Tokens) (stop : Tree)
  | range (start : Tree) (dots : Tokens) (stop : Tree)
  /-- `bareTail` says that the type ends with a name that could take type arguments. -/
  | cast (operand : Tree) (type : Tokens) (bareTail : Bool)
  | trailer (sort : Trailer) (base : Tree) (tokens : Tokens)
  | jump (keyword : String) (label : Tokens)
  | jumpWith (keyword : String) (label : Tokens) (value : Tree)
  /-- `typed` says that a result type stands in front of the body, which is then a block. -/
  | closure (front : Tokens) (typed : Bool) (body : Tree)
  | binding (pattern : Tokens) (value : Tree)
  | other (shape : Shape) (tokens : Tokens)

namespace Tree

def core : Tree → Tree
  | .marked _ inner => inner.core
  | e => e

/-- Puts attributes in front of those that are there already. An expression that is kept as it was
written takes none. -/
def mark (attributes : Tokens) : Tree → Tree
  | .other .raw tokens => .other .raw tokens
  | .marked more inner => .marked (attributes ++ more) inner
  | e => if attributes.isEmpty then e else .marked attributes e

/-- Attributes in front of a statement go to its first operand. -/
def markFirst (attributes : Tokens) : Tree → Tree
  | .assign left right => .assign (left.markFirst attributes) right
  | .binary op left right => .binary op (left.markFirst attributes) right
  | .cast operand type bareTail => .cast (operand.markFirst attributes) type bareTail
  | e => e.mark attributes

def isRange (e : Tree) : Bool :=
  match e.core with
  | .rangeAll | .rangeFrom _ | .rangeTo .. | .range .. => true
  | _ => false

def isComparison (e : Tree) : Bool :=
  match e.core with
  | .binary op _ _ => op.precedence = .compare
  | _ => false

/-- Expressions that end with their own braces, so that nothing need part them from what follows. -/
def isBlockLike (e : Tree) : Bool :=
  match e.core with
  | .other shape _ =>
    match shape with
    | .block | .ifElse | .endless | .whileLoop | .forLoop | .arms | .unsafeBlock | .constBlock
    | .tryBlock => true
    | _ => false
  | _ => false

def isBraceCall (e : Tree) : Bool :=
  match e.core with
  | .other .braceCall _ => true
  | _ => false

def isStruct (e : Tree) : Bool :=
  match e.core with
  | .other .struct _ => true
  | _ => false

def isBinding (e : Tree) : Bool :=
  match e.core with
  | .binding .. => true
  | _ => false

/-- A block without a label and without any attribute. -/
def isPlainBlock : Tree → Bool
  | .other .block [.group .brace inner _ _] =>
    !(seesPunct ['#'] inner && seesPunct ['!'] (second inner))
  | _ => false

def leadsWithLabel : Tree → Bool
  | .other _ tokens => seesLifetime tokens
  | .assign left _ | .binary _ left _ | .rangeFrom left | .range left _ _ => left.leadsWithLabel
  | .cast operand _ _ => operand.leadsWithLabel
  | .trailer _ base _ => base.leadsWithLabel
  | .marked _ inner => inner.leadsWithLabel
  | _ => false

def endsInBrace (tokens : Tokens) : Bool :=
  match tokens.getLast? with
  | some (.group .brace ..) => true
  | _ => false

def trailsWithBrace : Tree → Bool
  | .other _ tokens => endsInBrace tokens
  | .cast _ type _ => endsInBrace type
  | .unary _ e | .reference _ _ e | .assign _ e | .binary _ _ e | .rangeTo _ e => e.trailsWithBrace
  | .range _ _ e | .jumpWith _ _ e | .closure _ _ e | .binding _ e => e.trailsWithBrace
  | .marked _ inner => inner.trailsWithBrace
  | _ => false

def precedence : Tree → Precedence
  | .assign .. => .assign
  | .rangeAll | .rangeFrom _ | .rangeTo .. | .range .. => .range
  | .binary op _ _ => op.precedence
  | .binding .. => .condition
  | .cast .. => .cast
  | .unary .. | .reference .. => .unary
  | .jumpWith .. => .jump
  | .closure _ typed _ => if typed then .operand else .jump
  | .marked _ (.jump ..) => .operand
  | .marked _ inner => if inner.precedence = .operand then .unary else inner.precedence
  | _ => .operand

def shape (e : Tree) : Shape :=
  match e.core with
  | .other shape _ => shape
  | .trailer .call _ _ | .trailer .method _ _ => .call
  | .trailer .part _ _ => .selector
  | .trailer .index _ _ => .index
  | .rangeAll | .rangeFrom _ | .rangeTo .. | .range .. => .slice
  | .cast .. => .conversion
  | .reference _ false _ => .reference
  | .closure .. => .closure
  | .assign .. => .assignment
  | _ => .plain

end Tree

end GoDecl.Grammar
