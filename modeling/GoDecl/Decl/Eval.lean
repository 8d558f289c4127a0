import GoDecl.Decl.Basic
import GoDecl.Expr.Eval
import GoDecl.Settings

/-! Evaluation of declarations. Each declared name gets one slot: the value of its initialiser, or
nothing. A failure stays in its slot; what comes after is evaluated all the same. -/
namespace GoDecl

/-- The value of names without initialisers: that of the declared type, if it is a bare name. -/
def ValueSpec.zero? (settings : Settings) (spec : ValueSpec) : Option Value :=
  match spec.type with
  | some (.name text) =>
    if spec.values.isEmpty && settings.zeroValues then Value.zero? text else none
  | _ => none

def initialValue (max : Nat) (zero : Option Value) (name : String) : Option Expr → Evaluation
  | some e => e.eval max
  | none => return match zero with
    | some v => .ok v
    | none => .error (.missingInitializer name)

/-- A slot holds the value; a failure is reported and leaves it empty. -/
def slotOf (name : String) : Except EvalError Value → Action Slot
  | .ok v => return some v
  | .error e => do
    Action.report (.noValue name e)
    return none

def evalNames (max : Nat) (zero : Option Value) : List String → List Expr → Action (List Slot)
  | [], _ => return []
  | name :: names, values => do
    let slot ← slotOf name (← initialValue max zero name values.head?)
    Environment.bindSlot name slot
    return slot :: (← evalNames max zero names values.tail)

def ValueSpec.eval (settings : Settings) (spec : ValueSpec) : Action (List Slot) :=
  evalNames settings.maxDepth (spec.zero? settings) spec.names spec.values

def evalSpecs (settings : Settings) : List ValueSpec → Action (List (List Slot))
  | [] => return []
  | spec :: rest => do
    let slots ← spec.eval settings
    return slots :: (← evalSpecs settings rest)

def Declaration.eval (settings : Settings) : Declaration → Action (List Slot)
  | .value _ specs => return (← evalSpecs settings specs).flatten
  | .skipped kind tokens => do
    Action.report (.skipping kind tokens)
    return []

def evalDeclarations (settings : Settings) : List Declaration → Action (List Slot)
  | [] => return []
  | d :: rest => do
    let slots ← d.eval settings
    return slots ++ (← evalDeclarations settings rest)

end GoDecl
