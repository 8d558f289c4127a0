import GoDecl.Text.Quoted

/-! Coarse lexemes: just enough to find raw strings and floats that begin with a point,
without looking inside strings, runes and comments. -/
namespace GoDecl.Source

open Text

inductive PieceKind where
  | rawString | pointFloat | number | string | rune | lineComment | blockComment
  | word | blank | mark | unknown
  deriving DecidableEq, Repr

structure Piece where
  kind : PieceKind
  text : List Char
  deriving DecidableEq, Repr

def run (p : Char → Bool) (text : List Char) : List Char × List Char :=
  (text.takeWhile p, text.dropWhile p)

/-- Whether a text is closed behind its opening quote, its part up to there, and the rest. A
backslash goes with the character after it, and newlines cannot be inside. -/
def quotedRun (quote : Char) : List Char → Bool × List Char × List Char
  | [] => (false, [], [])
  | ['\\'] => (false, ['\\'], [])
  | '\\' :: c :: rest =>
    if c = '\n' then (false, ['\\'], c :: rest)
    else let (closed, part, rest) := quotedRun quote rest; (closed, '\\' :: c :: part, rest)
  | c :: rest =>
    if c = quote then (true, [c], rest)
    else if c = '\n' then (false, [], c :: rest)
    else let (closed, part, rest) := quotedRun quote rest; (closed, c :: part, rest)

/-- The part of a block comment behind its opening, up to the first `*/`. These comments do
not nest. -/
def blockRun : List Char → Option (List Char × List Char)
  | [] => none
  | '*' :: '/' :: rest => some (['*', '/'], rest)
  | c :: rest => do
    let (part, rest) ← blockRun rest
    some (c :: part, rest)

def signedRun (text : List Char) : List Char × List Char :=
  match text with
  | sign :: c :: rest =>
    if (sign = '+' || sign = '-') && isDigitOrUnderscore c then
      let (part, rest) := run isDigitOrUnderscore (c :: rest)
      (sign :: part, rest)
    else ([], text)
  | _ => ([], text)

def isExponentMark (c : Char) : Bool := c = 'e' || c = 'E' || c = 'p' || c = 'P'

/-- A number behind its first digit: word characters, at most one point among them, and a signed
exponent if the last of them is an exponent mark. -/
def numberRun (text : List Char) : List Char × List Char :=
  let (front, rest) := run isAsciiWordPart text
  let (back, rest) := match rest with
    | '.' :: more => let (part, more) := run isAsciiWordPart more; ('.' :: part, more)
    | _ => ([], rest)
  let written := front ++ back
  if written.getLast?.any isExponentMark then
    let (power, rest) := signedRun rest
    (written ++ power, rest)
  else (written, rest)

def exponentRun (text : List Char) : List Char × List Char :=
  match text with
  | 'e' :: rest | 'E' :: rest =>
    let (power, after) := match run isDigitOrUnderscore rest with
      | ([], _) => signedRun rest
      | found => found
    if power.isEmpty then ([], text) else (text.take 1 ++ power, after)
  | _ => ([], text)

/-- The first piece of a text that begins with `c`: the longest lexeme, or, where none is
complete, what cannot be part of one. -/
def firstPiece (c : Char) (rest : List Char) : Piece × List Char :=
  if c = backQuote then
    let (body, after) := run (· ≠ backQuote) rest
    match after with
    | [] => (⟨.unknown, c :: body⟩, [])
    | q :: after => (⟨.rawString, c :: body ++ [q]⟩, after)
  else if c = doubleQuote then
    let (closed, part, after) := quotedRun c rest
    (⟨if closed then .string else .unknown, c :: part⟩, after)
  else if c = singleQuote then
    let (closed, part, after) := quotedRun c rest
    (⟨if closed then .rune else .unknown, c :: part⟩, after)
  else if isDigit c then
    let (part, after) := numberRun rest
    (⟨.number, c :: part⟩, after)
  else if isLetter c || c = '_' then
    let (part, after) := run (fun c => isLetter c || isNumber c || c = '_') rest
    (⟨.word, c :: part⟩, after)
  else if isBlank c then
    let (part, after) := run isBlank rest
    (⟨.blank, c :: part⟩, after)
  else if isNumber c then (⟨.unknown, [c]⟩, rest)
  else
    match c, rest with
    | '.', d :: more =>
      if isDigit d then
        let (digits, more) := run isDigitOrUnderscore more
        let (power, after) := exponentRun more
        (⟨.pointFloat, c :: d :: digits ++ power⟩, after)
      else (⟨.mark, [c]⟩, rest)
    | '/', '/' :: more =>
      let (part, after) := run (· ≠ '\n') more
      (⟨.lineComment, '/' :: '/' :: part⟩, after)
    | '/', '*' :: more =>
      match blockRun more with
      | some (part, after) => (⟨.blockComment, '/' :: '*' :: part⟩, after)
      | none => (⟨.mark, [c]⟩, rest)
    | _, _ => (⟨.mark, [c]⟩, rest)

def cutPieces : (fuel : Nat) → List Char → List Piece
  | 0, _ => []
  | _ + 1, [] => []
  | fuel + 1, c :: rest =>
    let (piece, after) := firstPiece c rest
    piece :: cutPieces fuel after

def pieces (text : List Char) : List Piece := cutPieces text.length text

end GoDecl.Source
