import GoDecl.Environment.Bindings
import GoDecl.Event

/-! The symbol table. Names of the prelude come first and are never rebound; below them is one
flat scope of user bindings. The table also counts how deep the evaluation is nested. -/
namespace GoDecl

def standardPrelude : Bindings := [("true", .bool true), ("false", .bool false)]

structure Environment where
  prelude : Bindings := standardPrelude
  bindings : Bindings := []
  depth : Nat := 0

structure Outcome (α : Type) where
  answer : α
  env : Environment
  events : List Event := []

abbrev Action (α : Type) := Environment → Outcome α

namespace Action

def answer {α : Type} (a : α) : Action α := fun env => { answer := a, env }

/-- One operation after the other, and the reports in that order. -/
def andThen {α β : Type} (first : Action α) (next : α → Action β) : Action β := fun env =>
  let before := first env
  let after := next before.answer before.env
  { after with events := before.events ++ after.events }

instance : Monad Action where
  pure := answer
  bind := andThen

def report (e : Event) : Action Unit := fun env => { answer := (), env, events := [e] }

end Action

namespace Environment

def get? (env : Environment) (name : String) : Option Value :=
  env.prelude.get? name <|> env.bindings.get? name

def contains (env : Environment) (name : String) : Bool := (env.get? name).isSome

def lookup (env : Environment) (name : String) : Except EvalError Value :=
  match env.get? name with
  | some value => .ok value
  | none => .error (.undefinedVariable name)

/-- Binds a name. The answer is whether that was possible: names of the prelude stay as they
are. -/
def define (name : String) (value : Value) : Action Bool := fun env =>
  if env.prelude.contains name then
    { answer := false, env, events := [.protectedName name] }
  else
    { answer := true
      env := { env with bindings := env.bindings.insert name value }
      events := [.define name value] }

def undefine (name : String) : Action Slot := fun env =>
  match env.bindings.get? name with
  | some value =>
    { answer := some value
      env := { env with bindings := env.bindings.erase name }
      events := [.undefine name] }
  | none => { answer := none, env }

def bindSlot (name : String) : Slot → Action Unit
  | some value => do discard (define name value)
  | none => do discard (undefine name)

def enter (max : Nat) (env : Environment) : Except EvalError Environment :=
  if max ≤ env.depth then .error (.depthExceeded max)
  else .ok { env with depth := env.depth + 1 }

def exit (env : Environment) : Environment := { env with depth := env.depth - 1 }

def clear (env : Environment) : Environment := { env with bindings := [], depth := 0 }

end Environment

end GoDecl
