import GoDecl.Token.Basic
import GoDecl.Token.Quote

/-! The single lexemes that a text begins with. -/
namespace GoDecl.Token

open Text

def readPart (text rest : List Char) : List Char := text.take (text.length - rest.length)

/-- A literal, by the first reading that succeeds, and the text after it and its suffix. -/
def literal? (text : List Char) : Option (Literal × List Char) :=
  let finish (rest : List Char) (make : String → Literal) : Literal × List Char :=
    let rest := afterSuffix rest
    (make (.ofList (readPart text rest)), rest)
  match text with
  | '\x22' :: more => do
    let (body, rest) ← string? stringRule more
    some (finish rest (.string · (.ofList body)))
  | 'r' :: more => do
    let (body, rest) ← rawString? stringRule more
    some (finish rest (.string · (.ofList body)))
  | 'b' :: '\x22' :: more => do
    let (_, rest) ← string? byteRule more
    some (finish rest .byteString)
  | 'b' :: 'r' :: more => do
    let (_, rest) ← rawString? byteRule more
    some (finish rest .byteString)
  | 'b' :: '\x27' :: more => do
    let (_, rest) ← rune? byteRule more
    some (finish rest .byte)
  | 'c' :: '\x22' :: more => do
    let (_, rest) ← string? zeroEndedRule more
    some (finish rest .zeroEnded)
  | 'c' :: 'r' :: more => do
    let (_, rest) ← rawString? zeroEndedRule more
    some (finish rest .zeroEnded)
  | '\x27' :: more => do
    let (c, rest) ← rune? stringRule more
    some (finish rest (.rune · c))
  | _ =>
    match afterFloat? text with
    | some rest => some (.float (.ofList (readPart text rest)), rest)
    | none => do
      let rest ← afterInt? text
      some (.int (.ofList (readPart text rest)), rest)

/-- A word. After `r#` any word but a few counts as a plain name. -/
def anyWord? (text : List Char) : Option (List Char × List Char) :=
  match text with
  | 'r' :: '#' :: more => do
    let rest ← afterWord? more
    let name := readPart more rest
    if ["_", "super", "self", "Self", "crate"].contains (.ofList name) then none
    else some ('r' :: '#' :: name, rest)
  | _ => do
    let rest ← afterWord? text
    some (readPart text rest, rest)

def opensLiteral : List Char → Bool
  | 'r' :: '\x22' :: _ | 'r' :: '#' :: '\x22' :: _ | 'r' :: '#' :: '#' :: _ => true
  | 'b' :: '\x22' :: _ | 'b' :: '\x27' :: _ => true
  | 'b' :: 'r' :: '\x22' :: _ | 'b' :: 'r' :: '#' :: _ => true
  | 'c' :: '\x22' :: _ | 'c' :: 'r' :: '\x22' :: _ | 'c' :: 'r' :: '#' :: _ => true
  | _ => false

def word? (text : List Char) : Option (List Char × List Char) :=
  if opensLiteral text then none else anyWord? text

def punctuation : List Char :=
  ['~', '!', '@', '#', '$', '%', '^', '&', '*', '-', '=', '+', '|', ';', ':', ',', '<', '.', '>',
    '/', '?', '\x27']

/-- A mark at the start of a text; the slash of a comment is none. -/
def mark? : List Char → Option (Char × List Char)
  | '/' :: '/' :: _ | '/' :: '*' :: _ => none
  | c :: rest => if punctuation.contains c then some (c, rest) else none
  | [] => none

/-- A mark with the news whether it is joint. A single quote counts only in front of a word
that no quote or fence mark closes. -/
def punct? (text : List Char) : Option (Char × Bool × List Char) := do
  let (c, rest) ← mark? text
  if c = '\x27' then
    let (_, behind) ← anyWord? rest
    match behind with
    | '\x27' :: _ => none
    | '#' :: _ =>
      match rest with
      | 'r' :: '#' :: _ => some (c, true, rest)
      | _ => none
    | _ => some (c, true, rest)
  else some (c, (mark? rest).isSome, rest)

/-- The text after a comment whose opening `/*` is read; comments nest. -/
def afterBlock? : (depth : Nat) → List Char → Option (List Char)
  | _, [] => none
  | depth, '/' :: '*' :: rest => afterBlock? (depth + 1) rest
  | depth, '*' :: '/' :: rest =>
    if depth = 0 then some rest else afterBlock? (depth - 1) rest
  | depth, _ :: rest => afterBlock? depth rest

def restOfLine : List Char → List Char × List Char
  | [] => ([], [])
  | '\n' :: rest => ([], '\n' :: rest)
  | '\r' :: '\n' :: rest => ([], '\n' :: rest)
  | c :: rest => let (line, rest) := restOfLine rest; (c :: line, rest)

def hasBareReturn : List Char → Bool
  | [] => false
  | '\r' :: '\n' :: rest => hasBareReturn rest
  | c :: rest => c = '\r' || hasBareReturn rest

/-- What a comment is: blank space, or a note attached to what follows (or, if `inner`, to what
surrounds it). -/
inductive Comment where
  | blank (rest : List Char)
  | note (body : List Char) (inner : Bool) (rest : List Char)

/-- The comment at the start of a text. Unclosed block comments and notes with a bare carriage
return are none. -/
def comment? (text : List Char) : Option Comment :=
  let lineNote (inner : Bool) (more : List Char) : Option Comment :=
    let (body, rest) := restOfLine more
    if hasBareReturn body then none else some (.note body inner rest)
  let blockNote (inner : Bool) (more : List Char) : Option Comment := do
    let rest ← afterBlock? 0 (more.drop 2)
    let body := ((readPart more rest).drop 3).dropLast.dropLast
    if hasBareReturn body then none else some (.note body inner rest)
  match text with
  | '/' :: '/' :: '!' :: more => lineNote true more
  | '/' :: '/' :: '/' :: '/' :: more => some (.blank (restOfLine more).2)
  | '/' :: '/' :: '/' :: more => lineNote false more
  | '/' :: '/' :: more => some (.blank (restOfLine more).2)
  | '/' :: '*' :: '*' :: '/' :: more => some (.blank more)
  | '/' :: '*' :: '!' :: _ => blockNote true text
  | '/' :: '*' :: '*' :: '*' :: more => (afterBlock? 0 ('*' :: '*' :: more)).map .blank
  | '/' :: '*' :: '*' :: _ => blockNote false text
  | '/' :: '*' :: more => (afterBlock? 0 more).map .blank
  | _ => none

end GoDecl.Token
