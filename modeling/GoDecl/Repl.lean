import GoDecl.Session

/-! The read, evaluate and print loop, as a function of the lines that come in. -/
namespace GoDecl

structure Transcript where
  out : List String := []
  err : List String := []
  deriving DecidableEq, Repr

namespace Transcript

def append (a b : Transcript) : Transcript := ⟨a.out ++ b.out, a.err ++ b.err⟩

instance : Append Transcript := ⟨append⟩

def channelText (lines : List String) : String := .join (lines.map (· ++ "\n"))

end Transcript

namespace Repl

inductive Command where
  | quit | help | reset | env
  | source (text : String)
  deriving DecidableEq, Repr

/-- What a line asks for. Blank space around it does not matter, and a blank line asks for
nothing. -/
def Command.ofLine? (line : List Char) : Option Command :=
  match String.ofList (Text.trim line) with
  | "" => none
  | ":quit" | ":q" => some .quit
  | ":help" => some .help
  | ":reset" => some .reset
  | ":env" => some .env
  | text => some (.source text)

def banner : String :=
  "sprig " ++ version ++ " (" ++ languageName ++ " declarations). Type :help for commands."

def farewell : String := "See you later"

def helpLines : List String :=
  ["Enter Go declarations, e.g. `var a, b = 5 * -5, \"go\"`.",
    "  :env     show builtins and user bindings",
    "  :reset   forget all user bindings",
    "  :help    show this message",
    "  :quit    leave the REPL"]

def bindingLine (style : RuneStyle) (name : String) (v : Value) : String :=
  name ++ " " ++ v.kind.name ++ " = " ++ style.text v

def envLines (s : Session) : List String :=
  s.env.prelude.map (fun (name, v) => bindingLine s.style name v ++ " (builtin)") ++
    s.env.bindings.map (fun (name, v) => bindingLine s.style name v)

/-- What a command does to the session and what it prints; the session is gone after `quit`. A
source without slots prints nothing. -/
def Command.perform (s : Session) : Command → Option Session × Transcript
  | .quit => (none, { out := [farewell] })
  | .help => (some s, { out := helpLines })
  | .reset => (some s.reset, { out := ["Environment cleared"] })
  | .env => (some s, { out := envLines s })
  | .source text =>
    let step := s.evaluateLine text
    let printed : Transcript := match step.answer with
      | .ok "" => {}
      | .ok line => { out := [line] }
      | .error e => { err := [e.text] }
    (some step.session, printed)

def step (s : Session) (line : List Char) : Option Session × Transcript :=
  match Command.ofLine? line with
  | none => (some s, {})
  | some command => command.perform s

def runLines (s : Session) : List (List Char) → Transcript
  | [] => { out := [farewell] }
  | line :: rest =>
    match step s line with
    | (some next, printed) => printed ++ runLines next rest
    | (none, printed) => printed

def run (s : Session) (input : List Char) : Transcript :=
  { out := [banner] : Transcript } ++ runLines s (Text.lines input)

end Repl

end GoDecl
