import GoDecl.Decl.Basic

/-! What happens on the way: a record for whoever wants to follow an evaluation. -/
namespace GoDecl

inductive Event where
  | parseFailed (message : String)
  | evaluating (declarations : Nat)
  | skipping (kind : SkippedKind) (tokens : List Token)
  | noValue (name : String) (cause : EvalError)
  | protectedName (name : String)
  | define (name : String) (value : Value)
  | undefine (name : String)

inductive Level where
  | debug | trace
  deriving DecidableEq, Repr

def Level.text : Level → String
  | .debug => "DEBUG"
  | .trace => "TRACE"

namespace Event

def level : Event → Level
  | .parseFailed _ | .evaluating _ | .noValue .. => .debug
  | .skipping .. | .protectedName _ | .define .. | .undefine _ => .trace

def message : Event → String
  | .parseFailed _ => "parse failed"
  | .evaluating _ => "evaluating"
  | .skipping .. => "skipping declaration"
  | .noValue .. => "no value"
  | .protectedName _ => "ignoring rebind of prelude name"
  | .define .. => "define"
  | .undefine _ => "undefine"

/-- The name of a kind of declaration in events. -/
def kindText : SkippedKind → String
  | .func => "Func"
  | .type => "Type"
  | .imports => "Import"

/-- What the event carries, by name. -/
def fields : Event → List (String × String)
  | .parseFailed message => [("error", message)]
  | .evaluating count => [("declarations", Value.intText count), ("frontend", "Go")]
  | .skipping kind tokens => [("kind", kindText kind), ("tokens", Token.textOf tokens)]
  | .noValue name cause => [("name", name), ("error", cause.message)]
  | .protectedName name => [("name", name)]
  | .define name value => [("name", name), ("value", value.inspect)]
  | .undefine name => [("name", name)]

end Event

end GoDecl
