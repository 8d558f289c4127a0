import GoDecl.Text.Position

/-! What is reported when a source cannot be read. -/
namespace GoDecl

structure Location where
  file : String
  line : Nat
  column : Nat
  deriving DecidableEq, Repr

structure ParseError where
  message : String
  location : Option Location := none
  snippet : Option String := none
  deriving DecidableEq, Repr

namespace ParseError

/-- The error at a place of a source, with the line and a mark under the place. -/
def atPlace (message : String) (p : Position) (source : List Char) : ParseError where
  message := message
  location := some ⟨"input.go", p.line, p.column⟩
  snippet := (Text.lines source)[p.line - 1]?.map fun line =>
    .ofList (line ++ '\n' :: List.replicate (p.column - 1) ' ' ++ ['^'])

def text (e : ParseError) : String :=
  let place := match e.location with
    | some l => " at " ++ l.file ++ ":" ++ toString l.line ++ ":" ++ toString l.column
    | none => ""
  let snippet := match e.snippet with
    | some s => "\n" ++ s
    | none => ""
  "Parse error: " ++ e.message ++ place ++ snippet

end ParseError

end GoDecl
