import GoDecl.Token.Number

/-! Literals between quotes: what they stand for, and the text after them. -/
namespace GoDecl.Token

open Text

structure QuoteRule where
  plain : Char → Bool
  hex : Nat → Bool
  unicode : Char → Bool
  nul : Bool

def stringRule : QuoteRule := ⟨fun _ => true, (· < 0x80), fun _ => true, true⟩

def byteRule : QuoteRule := ⟨fun c => c.toNat < 0x80, fun _ => true, fun _ => false, true⟩

def zeroEndedRule : QuoteRule := ⟨(· ≠ '\x00'), (· ≠ 0), (· ≠ '\x00'), false⟩

/-- The digits of a code point in braces: one to six, underscores after the first. -/
def codePoint? (n count : Nat) : List Char → Option (Char × List Char)
  | [] => none
  | c :: rest =>
    if c = '\x7d' then
      if count = 0 then none else (scalar? n).map (·, rest)
    else if c = '_' then
      if count = 0 then none else codePoint? n count rest
    else
      match hexValue? c with
      | some d => if count = 6 then none else codePoint? (16 * n + d) (count + 1) rest
      | none => none

def escape? (rule : QuoteRule) : List Char → Option (Char × List Char)
  | 'n' :: rest => some ('\n', rest)
  | 'r' :: rest => some ('\r', rest)
  | 't' :: rest => some ('\t', rest)
  | '\\' :: rest => some ('\\', rest)
  | '\x27' :: rest => some ('\x27', rest)
  | '\x22' :: rest => some ('\x22', rest)
  | '0' :: rest => if rule.nul then some ('\x00', rest) else none
  | 'x' :: a :: b :: rest => do
    let n := 16 * (← hexValue? a) + (← hexValue? b)
    if rule.hex n then some (Char.ofNat n, rest) else none
  | 'u' :: '\x7b' :: rest => do
    let (c, rest) ← codePoint? 0 0 rest
    if rule.unicode c then some (c, rest) else none
  | _ => none

/-- A backslash at the end of a line takes along the blanks that open the lines after it. A
carriage return stands only before a newline. -/
def afterGap? : List Char → Option (List Char)
  | [] => none
  | '\r' :: '\n' :: rest => afterGap? rest
  | '\r' :: _ => none
  | c :: rest =>
    if c = ' ' || c = '\t' || c = '\n' then afterGap? rest else some (c :: rest)

/-- The characters up to the closing double quote, and the text after it. A carriage return
and the newline after it stand for the newline. -/
def stringBody? (rule : QuoteRule) : (fuel : Nat) → List Char → Option (List Char × List Char)
  | 0, _ => none
  | _ + 1, [] => none
  | fuel + 1, c :: rest =>
    if c = '\x22' then some ([], rest)
    else if c = '\r' then
      match rest with
      | '\n' :: rest => do
        let (body, rest) ← stringBody? rule fuel rest
        some ('\n' :: body, rest)
      | _ => none
    else if c = '\\' then
      match rest with
      | '\n' :: _ | '\r' :: _ => do stringBody? rule fuel (← afterGap? rest)
      | _ => do
        let (e, rest) ← escape? rule rest
        let (body, rest) ← stringBody? rule fuel rest
        some (e :: body, rest)
    else if rule.plain c then do
      let (body, rest) ← stringBody? rule fuel rest
      some (c :: body, rest)
    else none

def string? (rule : QuoteRule) (text : List Char) : Option (List Char × List Char) :=
  stringBody? rule text.length text

/-- The number of fence marks in front of a raw string, and the text after its quote. -/
def fence? (count : Nat) : List Char → Option (Nat × List Char)
  | '#' :: rest => fence? (count + 1) rest
  | '\x22' :: rest => if 255 < count then none else some (count, rest)
  | _ => none

def startsWithFence : Nat → List Char → Bool
  | 0, _ => true
  | n + 1, '#' :: rest => startsWithFence n rest
  | _ + 1, _ => false

/-- The characters up to the first quote that is followed by the fence. They stand for
themselves. -/
def rawBody? (rule : QuoteRule) (fence : Nat) : List Char → Option (List Char × List Char)
  | [] => none
  | '\r' :: '\n' :: rest => do
    let (body, rest) ← rawBody? rule fence rest
    some ('\r' :: '\n' :: body, rest)
  | '\r' :: _ => none
  | c :: rest =>
    if c = '\x22' && startsWithFence fence rest then some ([], rest.drop fence)
    else if rule.plain c then do
      let (body, rest) ← rawBody? rule fence rest
      some (c :: body, rest)
    else none

def rawString? (rule : QuoteRule) (text : List Char) : Option (List Char × List Char) := do
  let (fence, rest) ← fence? 0 text
  rawBody? rule fence rest

def rune? (rule : QuoteRule) (text : List Char) : Option (Char × List Char) := do
  let (c, rest) ← match text with
    | [] => none
    | '\\' :: rest => escape? rule rest
    | c :: rest => if rule.plain c then some (c, rest) else none
  match rest with
  | '\x27' :: rest => some (c, rest)
  | _ => none

end GoDecl.Token
