import GoDecl.Token.Lexeme

/-! From text to tokens: first a row of leaves and brackets, then their nesting. -/
namespace GoDecl.Token

open Text

inductive Lexeme where
  | leaf (t : Token)
  | opening (d : Delimiter) (start : Position)
  | closing (d : Delimiter) (start : Position)

/-- The text of a note as it stands between quotes. A zero character is written in full where a
digit would seem to belong to it. -/
def noteText : List Char → List Char
  | [] => []
  | c :: rest =>
    let written := match c, rest with
      | '\x00', d :: _ =>
        if '0' ≤ d && d ≤ '7' then ['\\', 'x', '0', '0'] else escapedBy isHidden doubleQuote c
      | _, _ => escapedBy isHidden doubleQuote c
    written ++ noteText rest

def noteLexemes (body : List Char) (inner : Bool) (start stop : Position) : List Lexeme :=
  let text := String.ofList (doubleQuote :: noteText body ++ [doubleQuote])
  let bang := if inner then [.leaf (.punct '!' false start)] else []
  let content := [.word "doc" start, .punct '=' false start,
    .literal (.string text (.ofList body)) start]
  .leaf (.punct '#' false start) :: bang ++ [.leaf (.group .bracket content start stop)]

def delimiter? (c : Char) : Option (Delimiter × Bool) :=
  if c = '(' then some (.paren, true)
  else if c = '[' then some (.bracket, true)
  else if c = '\x7b' then some (.brace, true)
  else if c = ')' then some (.paren, false)
  else if c = ']' then some (.bracket, false)
  else if c = '\x7d' then some (.brace, false)
  else none

/-- How a token is printed that could not be made. Where a text has it, it is one literal. -/
def errorMark : List Char := ['(', '/', '*', 'E', 'R', 'R', 'O', 'R', '*', '/', ')']

def bracket? (text : List Char) : Option (Delimiter × Bool) :=
  if errorMark.isPrefixOf text then none else text.head?.bind delimiter?

/-- The leaf token at the start of a text. Literals are tried before marks, marks before words. -/
def leaf? (start : Position) (text : List Char) : Option (Token × List Char) :=
  match literal? text with
  | some (l, rest) => some (.literal l start, rest)
  | none =>
    match punct? text with
    | some (c, joint, rest) => some (.punct c joint start, rest)
    | none =>
      match word? text with
      | some (name, rest) => some (.word (.ofList name) start, rest)
      | none => do
        let rest ← errorMark.isPrefixOf? text
        some (.literal (.verbatim (.ofList errorMark)) start, rest)

def cut : (fuel : Nat) → Position → List Char → List Lexeme × Option Position
  | 0, _, _ => ([], none)
  | _ + 1, _, [] => ([], none)
  | fuel + 1, p, c :: rest =>
    let text := c :: rest
    let go (place : Position) (after : List Char) (found : List Lexeme) :=
      let (more, fault) := cut fuel place after
      (found ++ more, fault)
    if isTokenGap c then go (p.step c) rest []
    else
      match comment? text with
      | some (.blank after) => go (p.after (readPart text after)) after []
      | some (.note body inner after) =>
        let read := readPart text after
        go (p.after read) after (noteLexemes body inner p (p.after read.dropLast))
      | none =>
        match bracket? text with
        | some (d, true) => go (p.step c) rest [.opening d p]
        | some (d, false) => go (p.step c) rest [.closing d p]
        | none =>
          match leaf? p text with
          | some (t, after) => go (p.after (readPart text after)) after [.leaf t]
          | none => ([], some p)

structure Open where
  delimiter : Delimiter
  start : Position
  before : List Token

/-- Nests a row. `done` holds the tokens of the innermost open group, last first. -/
def nest (fault : Option Position) (done : List Token) (outer : List Open) :
    List Lexeme → Except Position (List Token)
  | [] =>
    match fault, outer with
    | some p, _ => .error p
    | none, o :: _ => .error o.start
    | none, [] => .ok done.reverse
  | .leaf t :: rest => nest fault (t :: done) outer rest
  | .opening d p :: rest => nest fault [] (⟨d, p, done⟩ :: outer) rest
  | .closing d p :: rest =>
    match outer with
    | [] => .error p
    | o :: outer =>
      if o.delimiter = d then
        nest fault (.group d done.reverse o.start p :: o.before) outer rest
      else .error p

/-- The tokens of a text, or the place where they break off. A byte order mark at the start takes
a column and is skipped. -/
def lex (text : List Char) : Except Position (List Token) :=
  let (start, text) := match text with
    | '\ufeff' :: rest => (Position.step {} '\ufeff', rest)
    | same => (({} : Position), same)
  let (row, fault) := cut (text.length + 1) start text
  nest fault [] [] row

end GoDecl.Token
