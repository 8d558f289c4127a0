import GoDecl.Text.Letters
import GoDecl.Text.Numbers
import GoDecl.Text.Marks
import GoDecl.Text.Hidden

/-! Character classes of source text. -/
namespace GoDecl.Text

def isLetter (c : Char) : Bool := letters.holds c

def isNumber (c : Char) : Bool :=
  decimalDigits.holds c || letterNumbers.holds c || otherNumbers.holds c

def isBlank (c : Char) : Bool :=
  insideBounds [0x9, 0xe, 0x20, 0x21, 0x85, 0x86, 0xa0, 0xa1, 0x1680, 0x1681, 0x2000, 0x200b,
    0x2028, 0x202a, 0x202f, 0x2030, 0x205f, 0x2060, 0x3000, 0x3001] c.toNat

/-- Characters that stand between tokens: white space and the two direction marks. -/
def isTokenGap (c : Char) : Bool := isBlank c || c = '\u200e' || c = '\u200f'

/-- Letters that compatibility forms turn into other characters, so that no identifier
begins with them. -/
def unstableLetters : Ranges where
  bounds := [0x37a, 0x37b, 0xe33, 0xe34, 0xeb3, 0xeb4, 0x2e2f, 0x2e30, 0xfc5e, 0xfc64, 0xfdfa,
    0xfdfc, 0xfe70, 0xfe71, 0xfe72, 0xfe73, 0xfe74, 0xfe75, 0xfe76, 0xfe77, 0xfe78, 0xfe79, 0xfe7a,
    0xfe7b, 0xfe7c, 0xfe7d, 0xfe7e, 0xfe7f, 0xff9e, 0xffa0]

def addedStarts : Ranges where
  bounds := [0x1885, 0x1887, 0x2118, 0x2119, 0x212e, 0x212f]

def addedContinues : Ranges where
  bounds := [0xb7, 0xb8, 0x387, 0x388, 0xe33, 0xe34, 0xeb3, 0xeb4, 0x1369, 0x1372, 0x19da, 0x19db,
    0x200c, 0x200e, 0x30fb, 0x30fc, 0xff65, 0xff66, 0xff9e, 0xffa0]

def connectors : Ranges where
  bounds := [0x5f, 0x60, 0x203f, 0x2041, 0x2054, 0x2055, 0xfe33, 0xfe35, 0xfe4d, 0xfe50,
    0xff3f, 0xff40]

def isWordStart (c : Char) : Bool :=
  c = '_' || addedStarts.holds c ||
    (isLetter c || letterNumbers.holds c) && !unstableLetters.holds c

def isWordPart (c : Char) : Bool :=
  isWordStart c || decimalDigits.holds c || connectors.holds c || combiningMarks.holds c ||
    addedContinues.holds c

def isHidden (c : Char) : Bool := hidden.holds c

def isDigit (c : Char) : Bool := '0' ≤ c && c ≤ '9'

def isDigitOrUnderscore (c : Char) : Bool := isDigit c || c = '_'

def isAsciiWordPart (c : Char) : Bool :=
  isDigitOrUnderscore c || 'a' ≤ c && c ≤ 'z' || 'A' ≤ c && c ≤ 'Z'

def hexValue? (c : Char) : Option Nat :=
  if isDigit c then some (c.toNat - '0'.toNat)
  else if 'a' ≤ c && c ≤ 'f' then some (c.toNat - 'a'.toNat + 10)
  else if 'A' ≤ c && c ≤ 'F' then some (c.toNat - 'A'.toNat + 10)
  else none

/-- The character of a code point, unless the point is a surrogate or past the last one. -/
def scalar? (n : Nat) : Option Char :=
  if n < 0xd800 || 0xdfff < n && n < 0x110000 then some (Char.ofNat n) else none

def trim (text : List Char) : List Char :=
  ((text.dropWhile isBlank).reverse.dropWhile isBlank).reverse

end GoDecl.Text
