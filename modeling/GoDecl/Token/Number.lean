import GoDecl.Text.Classes

/-! Number literals: where they end, and the value of an integer. -/
namespace GoDecl.Token

open Text

def afterWord? : List Char → Option (List Char)
  | [] => none
  | c :: rest => if isWordStart c then some (rest.dropWhile isWordPart) else none

def afterSuffix (text : List Char) : List Char := (afterWord? text).getD text

def atWordBreak : List Char → Bool
  | [] => true
  | c :: _ => !isWordPart c

def startsWithDigit : List Char → Bool
  | [] => false
  | c :: _ => isDigit c

/-- Underscores are allowed anywhere, and a sign before the first digit. -/
def afterExponent? (text : List Char) : Option (List Char) :=
  let text := text.dropWhile (· = '_')
  let text := match text with
    | '+' :: rest => rest
    | '-' :: rest => rest
    | same => same
  let text := text.dropWhile (· = '_')
  if startsWithDigit text then some (text.dropWhile isDigitOrUnderscore) else none

/-- The point of a number must not be followed by a second point or by a word. -/
def splitsAtPoint : List Char → Bool
  | [] => false
  | c :: _ => c = '.' || isWordStart c

/-- An exponent without digits is left to the suffix. -/
def afterFloatDigits? (text : List Char) : Option (List Char) :=
  if !startsWithDigit text then none
  else
    let withExponent (rest : List Char) (otherwise : Option (List Char)) : Option (List Char) :=
      match rest with
      | 'e' :: more | 'E' :: more => (afterExponent? more).or otherwise
      | _ => otherwise
    match text.dropWhile isDigitOrUnderscore with
    | '.' :: rest =>
      if splitsAtPoint rest then none
      else
        let rest := rest.dropWhile isDigitOrUnderscore
        withExponent rest (some rest)
    | rest => withExponent rest none

def afterFloat? (text : List Char) : Option (List Char) := do
  let rest := afterSuffix (← afterFloatDigits? text)
  if atWordBreak rest then some rest else none

def radix : List Char → Nat × List Char
  | '0' :: 'x' :: rest => (16, rest)
  | '0' :: 'o' :: rest => (8, rest)
  | '0' :: 'b' :: rest => (2, rest)
  | text => (10, text)

/-- Reads the digits of an integer onto `n`; `seen` says that there was one. A decimal digit that
the base lacks is an error, a letter that it lacks begins the suffix. -/
def readDigits (base : Nat) (n : Nat) (seen : Bool) : List Char → Option (Nat × List Char)
  | [] => if seen then some (n, []) else none
  | '_' :: rest => if !seen && base = 10 then none else readDigits base n seen rest
  | c :: rest =>
    match hexValue? c with
    | some d =>
      if d < base then readDigits base (base * n + d) true rest
      else if isDigit c then none
      else if seen then some (n, c :: rest) else none
    | none => if seen then some (n, c :: rest) else none

def readInt? (text : List Char) : Option (Nat × List Char) :=
  let (base, rest) := radix text
  readDigits base 0 false rest

def afterInt? (text : List Char) : Option (List Char) := do
  let (_, rest) ← readInt? text
  let rest := afterSuffix rest
  if atWordBreak rest then some rest else none

end GoDecl.Token
