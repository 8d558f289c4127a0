import GoDecl.Text.Classes

/-! Texts and characters between quotes, with every character visible. -/
namespace GoDecl.Text

def hexDigits (n : Nat) : List Char := Nat.toDigits 16 n

/-- How a character is written between `quote` marks: itself, a short escape, or its code
point in braces where `hides` says that it shows nothing of its own. -/
def escapedBy (hides : Char → Bool) (quote c : Char) : List Char :=
  if c = '\x00' then ['\\', '0']
  else if c = '\t' then ['\\', 't']
  else if c = '\r' then ['\\', 'r']
  else if c = '\n' then ['\\', 'n']
  else if c = '\\' then ['\\', '\\']
  else if c = quote then ['\\', quote]
  else if hides c then ['\\', 'u', '\x7b'] ++ hexDigits c.toNat ++ ['\x7d']
  else [c]

def doubleQuote : Char := '\x22'

def singleQuote : Char := '\x27'

def backQuote : Char := '\x60'

def quotedBy (hides : Char → Bool) (quote : Char) (text : List Char) : List Char :=
  quote :: (text.flatMap (escapedBy hides quote) ++ [quote])

def quotedString (s : String) : String := .ofList (quotedBy isHidden doubleQuote s.toList)

def quotedChar (c : Char) : String := .ofList (quotedBy isHidden singleQuote [c])

end GoDecl.Text
