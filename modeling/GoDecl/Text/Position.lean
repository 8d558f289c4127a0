/-! Places in a text. Lines end at a newline only, and columns count characters. -/
namespace GoDecl

structure Position where
  line : Nat := 1
  column : Nat := 1
  deriving DecidableEq, Repr, Inhabited

namespace Position

def step (p : Position) (c : Char) : Position :=
  if c = '\n' then ⟨p.line + 1, 1⟩ else ⟨p.line, p.column + 1⟩

def after (p : Position) (text : List Char) : Position := text.foldl step p

end Position

namespace Text

/-- `current` holds the line read so far, last character first. A carriage return goes with
the newline after it. -/
def linesFrom (current : List Char) : List Char → List (List Char)
  | [] => if current.isEmpty then [] else [current.reverse]
  | c :: rest =>
    if c = '\n' then
      let line := match current with
        | '\r' :: shorter => shorter
        | whole => whole
      line.reverse :: linesFrom [] rest
    else linesFrom (c :: current) rest

/-- The lines of a text. A newline at the very end opens no further line. -/
def lines (text : List Char) : List (List Char) := linesFrom [] text

end Text

end GoDecl
