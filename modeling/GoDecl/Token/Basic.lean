import GoDecl.Text.Position
import GoDecl.Text.Quoted

/-! Tokens of source text. Brackets of the three sorts come as groups that hold the tokens
between them. -/
namespace GoDecl

/-- A literal as written, with its meaning where it has one that the text does not show
directly. A suffix word after a literal is part of its text. -/
inductive Literal where
  | int (text : String)
  | float (text : String)
  | string (text value : String)
  | rune (text : String) (value : Char)
  | bool (value : Bool)
  | byteString (text : String)
  | zeroEnded (text : String)
  | byte (text : String)
  | verbatim (text : String)
  deriving DecidableEq, Repr

def Literal.text : Literal → String
  | .int text | .float text | .string text _ | .rune text _ => text
  | .byteString text | .zeroEnded text | .byte text | .verbatim text => text
  | .bool true => "true"
  | .bool false => "false"

inductive Delimiter where
  | paren | bracket | brace
  deriving DecidableEq, Repr

namespace Delimiter

def opening : Delimiter → Char
  | .paren => '('
  | .bracket => '['
  | .brace => '\x7b'

def closing : Delimiter → Char
  | .paren => ')'
  | .bracket => ']'
  | .brace => '\x7d'

def plural : Delimiter → String
  | .paren => "parentheses"
  | .bracket => "square brackets"
  | .brace => "curly braces"

end Delimiter

/-- A punctuation mark is joint when another one follows it at once. -/
inductive Token where
  | word (text : String) (start : Position)
  | punct (c : Char) (joint : Bool) (start : Position)
  | literal (value : Literal) (start : Position)
  | group (delimiter : Delimiter) (inner : List Token) (start stop : Position)

namespace Token

def start : Token → Position
  | .word _ p | .punct _ _ p | .literal _ p | .group _ _ p _ => p

def isJoint : Token → Bool
  | .punct _ joint _ => joint
  | _ => false

/-- A literal that was put together rather than read. -/
def ofLiteral : Literal → Token
  | .bool b => .word (Literal.text (.bool b)) {}
  | l => .literal l {}

def wrap (d : Delimiter) (inner : List Token) : Token := .group d inner {} {}

/-- An operator that was put together rather than read: one unit, apart from what follows. -/
def operator : List Char → List Token
  | [] => []
  | [c] => [.punct c false {}]
  | c :: rest => .punct c true {} :: operator rest

mutual
def text : Token → String
  | .word text _ => text
  | .punct c _ _ => .singleton c
  | .literal value _ => value.text
  | .group .brace inner _ _ =>
    if inner.isEmpty then "\x7b \x7d" else "\x7b " ++ textOf inner ++ " \x7d"
  | .group d inner _ _ => .singleton d.opening ++ textOf inner ++ .singleton d.closing
def textOf : List Token → String
  | [] => ""
  | [t] => t.text
  | t :: rest => t.text ++ (if t.isJoint then "" else " ") ++ textOf rest
end

mutual
def size : Token → Nat
  | .group _ inner _ _ => sizeOfAll inner + 1
  | _ => 1
def sizeOfAll : List Token → Nat
  | [] => 0
  | t :: rest => t.size + sizeOfAll rest
end

end Token

end GoDecl
