import GoDecl.Proofs.History

/-! The nesting count between the requests to a session. An evaluation gives back each level that it
enters, with a value and with an error alike, so no request finds a level that an earlier one
left. -/
namespace GoDecl

inductive Session.Request where
  | evaluate (source : String)
  | evaluateLine (source : String)
  | reset
  | define (name : String) (value : Value)

namespace Session

def serve (s : Session) : Request → Session
  | .evaluate source => (s.evaluate source).session
  | .evaluateLine source => (s.evaluateLine source).session
  | .reset => s.reset
  | .define name value => (s.run (Environment.define name value)).session

def serveAll (s : Session) (requests : List Request) : Session := requests.foldl serve s

end Session

theorem Environment.define_depth (env : Environment) (name : String) (value : Value) :
    (define name value env).env.depth = env.depth := by
  rw [define_env]
  split <;> rfl

theorem evalDeclarations_depth (settings : Settings) (declarations : List Declaration)
    (env : Environment) :
    (evalDeclarations settings declarations env).env.depth = env.depth := by
  rw [evalDeclarations_env, Environment.bindAll_depth]

theorem evaluate_depth (settings : Settings) (source : String) (env : Environment) :
    (evaluate settings source env).env.depth = env.depth := by
  cases parsed : Declaration.parse source with
  | error e => rw [(evaluate_of_parse_error settings source env e parsed).2]
  | ok declarations =>
    rw [(evaluate_of_parse_ok settings source env declarations parsed).2, evalDeclarations_depth]

namespace Session

theorem serve_depth {s : Session} (request : Request) (atRest : s.env.depth = 0) :
    (s.serve request).env.depth = 0 := by
  cases request with
  | evaluate source | evaluateLine source =>
    exact (evaluate_depth s.settings source s.env).trans atRest
  | reset => rfl
  | define name value => exact (s.env.define_depth name value).trans atRest

theorem serveAll_depth {s : Session} (requests : List Request) (atRest : s.env.depth = 0) :
    (s.serveAll requests).env.depth = 0 := by
  induction requests generalizing s with
  | nil => exact atRest
  | cons request rest ih => exact ih (serve_depth request atRest)

end Session

/-- No expression leaves a trace in the table, whatever its answer and however deep the table is
when it is evaluated. So no batch of declarations changes the nesting count, and in a session the
count is zero behind every series of requests. -/
theorem Expr.eval_leaves_no_trace :
    (∀ (e : Expr) (max : Nat) (env : Environment), (e.eval max env).env = env) ∧
    (∀ (settings : Settings) (declarations : List Declaration) (env : Environment),
      (evalDeclarations settings declarations env).env.depth = env.depth) ∧
    ∀ (settings : Settings) (style : RuneStyle) (requests : List Session.Request),
      (({ settings, style } : Session).serveAll requests).env.depth = 0 := by
  refine ⟨fun e max env => (e.eval_reads max env).1, evalDeclarations_depth, ?_⟩
  intro settings style requests
  exact Session.serveAll_depth requests rfl

/-- A level too few for the sum leaves the count as it was, and the table as it was. -/
example :
    let sum : Expr := .binary (.plain .add) (.name "a") (.paren (.name "a"))
    let env : Environment := { bindings := [("a", .int 1)], depth := 7 }
    (sum.eval 9 env).env = env ∧ (sum.eval 9 env).answer = .error (.depthExceeded 9) :=
  ⟨rfl, rfl⟩

end GoDecl
