import GoDecl.Token.Basic

/-! Looking at the tokens ahead. A lifetime such as `'a` is a single quote and a word; marks that
form one operator must be joint. -/
namespace GoDecl.Grammar

abbrev Tokens := List Token

/-- Words with a fixed role in expressions, so that they are no names. -/
def reserved : List String :=
  ["_", "abstract", "as", "async", "await", "become", "box", "break", "const", "continue", "crate",
    "do", "dyn", "else", "enum", "extern", "false", "final", "fn", "for", "if", "impl", "in", "let",
    "loop", "macro", "match", "mod", "move", "mut", "override", "priv", "pub", "ref", "return",
    "Self", "self", "static", "struct", "super", "trait", "true", "try", "type", "typeof", "unsafe",
    "unsized", "use", "virtual", "where", "while", "yield"]

def quoteMark : Char := '\x27'

def readPunct? : List Char → Tokens → Option (Tokens × Tokens)
  | [c], .punct d _ p :: rest =>
    if c = d && d ≠ quoteMark then some ([.punct c false p], rest) else none
  | c :: more, .punct d true p :: rest =>
    if c = d && d ≠ quoteMark then
      (readPunct? more rest).map fun (read, rest) => (.punct c true p :: read, rest)
    else none
  | _, _ => none

def seesPunct (symbol : List Char) (ahead : Tokens) : Bool := (readPunct? symbol ahead).isSome

def seesWord (text : String) : Tokens → Bool
  | .word w _ :: _ => w = text
  | _ => false

def seesAnyWord : Tokens → Bool
  | .word .. :: _ => true
  | _ => false

def seesName : Tokens → Bool
  | .word w _ :: _ => !reserved.contains w
  | _ => false

def seesGroup (d : Delimiter) : Tokens → Bool
  | .group e .. :: _ => e = d
  | _ => false

/-- A literal token, one of the two boolean words, or a number with its minus sign. -/
def seesLiteral : Tokens → Bool
  | .literal .. :: _ => true
  | .word w _ :: _ => w = "true" || w = "false"
  | .punct '-' _ _ :: .literal (.int _) _ :: _ => true
  | .punct '-' _ _ :: .literal (.float _) _ :: _ => true
  | _ => false

def seesString : Tokens → Bool
  | .literal (.string ..) _ :: _ => true
  | _ => false

def seesInt : Tokens → Bool
  | .literal (.int _) _ :: _ | .punct '-' _ _ :: .literal (.int _) _ :: _ => true
  | _ => false

def seesFloat : Tokens → Bool
  | .literal (.float _) _ :: _ | .punct '-' _ _ :: .literal (.float _) _ :: _ => true
  | _ => false

def seesLifetime : Tokens → Bool
  | .punct c true _ :: .word .. :: _ => c = quoteMark
  | _ => false

/-- The tokens after the next one; a lifetime counts as one. -/
def second (ahead : Tokens) : Tokens := ahead.drop (if seesLifetime ahead then 2 else 1)

def third (ahead : Tokens) : Tokens := second (second ahead)

def seesAnyOf (words : List String) (ahead : Tokens) : Bool := words.any (seesWord · ahead)

def pathMark : List Char := [':', ':']

def seesPoint (ahead : Tokens) : Bool := seesPunct ['.'] ahead && !seesPunct ['.', '.'] ahead

def seesColon (ahead : Tokens) : Bool := seesPunct [':'] ahead && !seesPunct pathMark ahead

def seesBang (ahead : Tokens) : Bool := seesPunct ['!'] ahead && !seesPunct ['!', '='] ahead

def seesPlaceWord (ahead : Tokens) : Bool := seesAnyOf ["super", "self", "Self", "crate"] ahead

end GoDecl.Grammar
