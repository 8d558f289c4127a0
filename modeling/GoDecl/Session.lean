import GoDecl.Decl.Eval
import GoDecl.Decl.Parser

/-! Sessions: sources are evaluated one after the other in one symbol table. -/
namespace GoDecl

/-- Reads a source and evaluates it. A source that cannot be read changes nothing. -/
def evaluate (settings : Settings) (source : String) :
    Action (Except ParseError (List Slot)) := do
  match Declaration.parse source with
  | .error e =>
    Action.report (.parseFailed e.message)
    return .error e
  | .ok declarations =>
    Action.report (.evaluating declarations.length)
    return .ok (← evalDeclarations settings declarations)

namespace RuneStyle

def text (style : RuneStyle) (v : Value) : String :=
  match style, v with
  | .codePoint, .rune c => Value.intText c.toNat
  | _, v => v.text

def slotText (style : RuneStyle) : Slot → String
  | some v => style.text v
  | none => "<no value>"

def lineText (style : RuneStyle) (slots : List Slot) : String :=
  ", ".intercalate (slots.map style.slotText)

end RuneStyle

structure Session where
  settings : Settings := {}
  style : RuneStyle := .scalar
  env : Environment := {}

namespace Session

/-- A session's answer, the session after it, and the events on the way. -/
structure Step (α : Type) where
  answer : α
  session : Session
  events : List Event

def run {α : Type} (s : Session) (action : Action α) : Step α :=
  let outcome := action s.env
  { answer := outcome.answer, session := { s with env := outcome.env }, events := outcome.events }

def evaluate (s : Session) (source : String) : Step (Except ParseError (List Slot)) :=
  s.run (GoDecl.evaluate s.settings source)

/-- Evaluates a source and shows its slots in one line. -/
def evaluateLine (s : Session) (source : String) : Step (Except ParseError String) :=
  let step := s.evaluate source
  { step with answer := step.answer.map s.style.lineText }

def reset (s : Session) : Session := { s with env := s.env.clear }

end Session

def languageName : String := "Go"

def fileExtension : String := "go"

def version : String := "0.0.1"

end GoDecl
