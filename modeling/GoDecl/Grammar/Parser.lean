import GoDecl.Grammar.Cursor

/-! Reading tokens. A reader works inside one group; a token left over at the end of a group is
remembered and spoils the whole reading only if nothing else does before. -/
namespace GoDecl.Grammar

/-- Why a reading ends. `exhausted` is kept apart: it says that the bound on nesting was too small
and nothing about the tokens. -/
inductive Fault where
  | refused (message : String) (place : Position)
  | exhausted
  deriving DecidableEq, Repr

structure Stray where
  place : Position
  scope : Option Delimiter
  deriving DecidableEq, Repr

structure Cursor where
  ahead : Tokens
  /-- Where the group closes; the start of the text if there is no group. -/
  close : Position := {}
  scope : Option Delimiter := none
  stray : Option Stray := none

def Cursor.place (c : Cursor) : Position :=
  match c.ahead with
  | t :: _ => t.start
  | [] => c.close

def Cursor.leftOver (c : Cursor) : Option Stray :=
  match c.ahead with
  | t :: _ => some ⟨t.start, c.scope⟩
  | [] => none

abbrev Parser := StateT Cursor (Except Fault)

def ahead : Parser Tokens := return (← get).ahead

def atEnd : Parser Bool := return (← get).ahead.isEmpty

def refuse {α : Type} (message : String) : Parser α := do
  let c ← get
  let message := if c.ahead.isEmpty then "unexpected end of input, " ++ message else message
  throw (.refused message c.place)

/-- Refuses without a word on the end of the input. -/
def refusePlainly {α : Type} (message : String) : Parser α := do
  throw (.refused message (← get).place)

def alternatives : List String → String
  | [] => "unexpected token"
  | [a] => "expected " ++ a
  | [a, b] => "expected " ++ a ++ " or " ++ b
  | many => "expected one of: " ++ ", ".intercalate many

def refuseFor {α : Type} (wanted : List String) : Parser α := refuse (alternatives wanted)

def ticked (text : String) : String := "`" ++ text ++ "`"

def token : Parser Token := do
  let c ← get
  match c.ahead with
  | t :: rest =>
    set { c with ahead := rest }
    return t
  | [] => refuse "expected token tree"

def punct (symbol : List Char) : Parser Tokens := do
  let c ← get
  match readPunct? symbol c.ahead with
  | some (read, rest) =>
    set { c with ahead := rest }
    return read
  | none => refusePlainly ("expected " ++ ticked (.ofList symbol))

def optionalPunct (symbol : List Char) : Parser Tokens := do
  if seesPunct symbol (← ahead) then punct symbol else return []

def word (text : String) : Parser Tokens := do
  if seesWord text (← ahead) then return [← token] else refuse ("expected " ++ ticked text)

def optionalWord (text : String) : Parser Tokens := do
  if seesWord text (← ahead) then return [← token] else return []

/-- Any word, reserved ones included. -/
def anyWord : Parser String := do
  match ← ahead with
  | .word w _ :: _ =>
    discard token
    return w
  | _ => refuse "expected ident"

def name : Parser String := do
  match ← ahead with
  | .word w _ :: _ =>
    if reserved.contains w then refuse ("expected identifier, found keyword " ++ ticked w)
    else
      discard token
      return w
  | _ => refuse "expected identifier"

def wordToken (text : String) : Token := .word text {}

def lifetime : Parser Tokens := do
  if seesLifetime (← ahead) then
    let quote ← token
    let w ← token
    return [quote, w]
  else refuse "expected lifetime"

/-- Reads the inside of a group with `body` and goes on behind it with `after`. A token left over
in the group is remembered only when `after` is done. -/
def insideThen {α β : Type} (d : Delimiter) (body : Parser α) (after : α → Parser β) :
    Parser β := do
  let c ← get
  match c.ahead with
  | .group e inner _ stop :: rest =>
    if e = d then
      set { ahead := inner, close := stop, scope := some d, stray := c.stray : Cursor }
      let found ← body
      let finished ← get
      set { c with ahead := rest, stray := finished.stray }
      let result ← after found
      modify fun c => { c with stray := c.stray <|> finished.leftOver }
      return result
    else refuse ("expected " ++ d.plural)
  | _ => refuse ("expected " ++ d.plural)

def inside {α : Type} (d : Delimiter) (body : Parser α) : Parser α := insideThen d body pure

def group (d : Delimiter) (body : Parser Tokens) : Parser Tokens := do
  return [.wrap d (← inside d body)]

def anyGroup : Parser Token := do
  match ← ahead with
  | .group .. :: _ => token
  | _ => refuse "expected delimiter"

/-- Items up to where `stop` holds, each with the comma behind it; the last may go without. -/
def itemsUntil {α : Type} (stop : Tokens → Bool) (item : Parser α) :
    (fuel : Nat) → Parser (List (α × Tokens))
  | 0 => throw .exhausted
  | fuel + 1 => do
    if stop (← ahead) then return []
    let first ← item
    if stop (← ahead) then return [(first, [])]
    let comma ← punct [',']
    return (first, comma) :: (← itemsUntil stop item fuel)

def listUntil {α : Type} (stop : Tokens → Bool) (item : Parser α) : Parser (List (α × Tokens)) := do
  itemsUntil stop item ((← ahead).length + 1)

def inRow (items : List (Tokens × Tokens)) : Tokens :=
  items.flatMap fun (item, comma) => item ++ comma

/-- Items up to the end of the group, parted by commas. -/
def list (item : Parser Tokens) : Parser Tokens := return inRow (← listUntil (·.isEmpty) item)

/-- Puts what `isFirst` selects in front of the rest. A comma is added where the two parts meet
without one. -/
def firstThings (items : List (Bool × Tokens × Tokens)) : Tokens :=
  let front := (items.filter (·.1)).map (·.2)
  let back := (items.filter (!·.1)).map (·.2)
  let apart := match front.getLast? with
    | some (_, comma) => back.isEmpty || !comma.isEmpty
    | none => true
  inRow front ++ (if apart then [] else Token.operator [',']) ++ inRow back

def repeated (more : Tokens → Bool) (item : Parser Tokens) : (fuel : Nat) → Parser Tokens
  | 0 => throw .exhausted
  | fuel + 1 => do
    if more (← ahead) then
      let first ← item
      return first ++ (← repeated more item fuel)
    else return []

def manyWhile (more : Tokens → Bool) (item : Parser Tokens) : Parser Tokens := do
  repeated more item ((← ahead).length + 1)

def untilEnd (item : Parser Tokens) : Parser Tokens := manyWhile (!·.isEmpty) item

def since (start : Tokens) : Parser Tokens := return start.take (start.length - (← ahead).length)

def written {α : Type} (reader : Parser α) : Parser Tokens := do
  let start ← ahead
  discard reader
  since start

/-- Runs `reader`, and takes nothing if it refuses. -/
def attempt? {α : Type} (reader : Parser α) : Parser (Option α) := fun c =>
  match reader c with
  | .ok (result, c) => .ok (some result, c)
  | .error (.refused ..) => .ok (none, c)
  | .error .exhausted => .error .exhausted

end GoDecl.Grammar
