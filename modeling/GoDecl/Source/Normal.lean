import GoDecl.Source.Piece

/-! The normal form of source text: raw strings are fenced and floats have a leading digit.
All else stays as it is, so every line keeps its number. -/
namespace GoDecl.Source

open Text

def longestFence : List Char → Nat
  | [] => 0
  | c :: rest =>
    if c = doubleQuote then max (rest.takeWhile (· = '#')).length (longestFence rest)
    else longestFence rest

/-- A raw string between fences that its body cannot close. Carriage returns are dropped. -/
def fenced (body : List Char) : List Char :=
  let body := body.filter (· ≠ '\r')
  let fence := List.replicate (longestFence body + 1) '#'
  'r' :: fence ++ doubleQuote :: body ++ doubleQuote :: fence

def Piece.normal (p : Piece) : List Char :=
  match p.kind with
  | .rawString => fenced (p.text.drop 1).dropLast
  | .pointFloat => '0' :: p.text
  | _ => p.text

def normalPieces (text : List Char) : List Char := (pieces text).flatMap Piece.normal

/-- Only a text with a back quote or a point can hold something else than its normal form. -/
def normal (text : List Char) : List Char :=
  if text.any (fun c => c = backQuote || c = '.') then normalPieces text else text

end GoDecl.Source
