import GoDecl.Proofs.Sessions

/-! The record of an evaluation. Whoever has only the messages and fields of the events, and a
listing of the bindings from before, can tell the bindings from after, which slots stayed empty,
which names were protected and which declarations were passed over. -/
namespace GoDecl

/-- Names with texts, in the order in which the names came. -/
abbrev Listing := List (String × String)

namespace Listing

/-- A listed name keeps its place and takes the new text; another name goes to the end. -/
def put (name text : String) (l : Listing) : Listing :=
  if name ∈ l.map (·.1) then l.map fun entry => if entry.1 = name then (name, text) else entry
  else l ++ [(name, text)]

/-- The listing without a name, and without a gap. -/
def without (name : String) (l : Listing) : Listing := l.filter (·.1 ≠ name)

/-- The first entry of the name takes the text. Where it is the only one, nothing else changes. -/
theorem put_cons_self {name text old : String} {l : Listing} (only : name ∉ l.map (·.1)) :
    put name text ((name, old) :: l) = (name, text) :: l := by
  have others : ∀ entry ∈ l, (if entry.1 = name then (name, text) else entry) = entry := by
    intro entry member
    refine if_neg ?_
    rintro rfl
    exact only (List.mem_map_of_mem member)
  simp [put, List.map_congr_left others]

theorem put_cons_of_ne {name text other old : String} {l : Listing} (apart : other ≠ name) :
    put name text ((other, old) :: l) = (other, old) :: put name text l := by
  simp only [put, List.map_cons, List.mem_cons, apart, apart.symm, false_or, if_false]
  split <;> rfl

end Listing

namespace Bindings

/-- The bindings as they are listed: each name with the text that tells its value apart. -/
def shown (b : Bindings) : Listing := b.map fun (name, value) => (name, value.inspect)

@[simp] theorem shown_cons (name : String) (value : Value) (b : Bindings) :
    shown ((name, value) :: b) = (name, value.inspect) :: shown b := rfl

@[simp] theorem names_shown (b : Bindings) : b.shown.map (·.1) = b.names := by
  simp [shown, names]

theorem shown_insert {b : Bindings} (distinct : b.names.Nodup) (name : String) (value : Value) :
    (b.insert name value).shown = b.shown.put name value.inspect := by
  induction b with
  | nil => rfl
  | cons pair rest ih =>
    obtain ⟨other, old⟩ := pair
    obtain ⟨only, distinctRest⟩ := List.nodup_cons.mp distinct
    by_cases same : other = name
    · subst same
      have absent : other ∉ (shown rest).map (·.1) := by rwa [names_shown]
      simpa [insert] using (Listing.put_cons_self absent).symm
    · have step : Listing.put name value.inspect (shown ((other, old) :: rest)) =
          (other, old.inspect) :: Listing.put name value.inspect (shown rest) :=
        Listing.put_cons_of_ne same
      rw [← ih distinctRest] at step
      simpa [insert, same] using step.symm

theorem shown_erase (b : Bindings) (name : String) :
    (b.erase name).shown = b.shown.without name := by
  simp only [shown, erase, Listing.without, List.filter_map]
  rfl

theorem nodup_insert {b : Bindings} (distinct : b.names.Nodup) (name : String) (value : Value) :
    (b.insert name value).names.Nodup := by
  rw [names_insert]
  split
  · exact distinct
  · next new => exact List.nodup_append.mpr ⟨distinct, by simp, by grind⟩

theorem nodup_erase {b : Bindings} (distinct : b.names.Nodup) (name : String) :
    (b.erase name).names.Nodup := by
  rw [names_erase]
  exact distinct.filter _

end Bindings

namespace Event

/-- A listing after an event, as far as its message and fields tell. -/
def replay (l : Listing) (e : Event) : Listing :=
  match e.message, e.fields with
  | "define", [("name", name), ("value", text)] => l.put name text
  | "undefine", [("name", name)] => l.without name
  | _, _ => l

/-- The fields of the events with a message. -/
def fieldsOf (message : String) (events : List Event) : List (List (String × String)) :=
  (events.filter (·.message = message)).map fields

/-- The names that the events with a message carry. -/
def namesOf (message : String) (events : List Event) : List (Option String) :=
  (fieldsOf message events).map (·.lookup "name")

@[simp] theorem fieldsOf_append (message : String) (first second : List Event) :
    fieldsOf message (first ++ second) = fieldsOf message first ++ fieldsOf message second := by
  simp [fieldsOf]

@[simp] theorem namesOf_append (message : String) (first second : List Event) :
    namesOf message (first ++ second) = namesOf message first ++ namesOf message second := by
  simp [namesOf]

end Event

/-- The names whose slot is empty. -/
def emptyNames (pairs : List (String × Slot)) : List String :=
  (pairs.filter (·.2.isNone)).map (·.1)

/-- The names of the prelude whose slot holds a value. -/
def protectedNames (prelude : Bindings) (pairs : List (String × Slot)) : List String :=
  (pairs.filter fun (name, slot) => slot.isSome && prelude.contains name).map (·.1)

/-- What is reported of a declaration without values. -/
def Declaration.skippedFields : Declaration → Option (List (String × String))
  | .value .. => none
  | .skipped kind tokens =>
    some [("kind", Event.kindText kind), ("tokens", Token.textOf tokens)]

/-- The events of an outcome account for all that it answers and leaves behind, from the table
`env`, where slots for `names` were asked for and `skipped` were passed over. -/
structure Accounts (env : Environment) (names : List String)
    (skipped : List (List (String × String))) (outcome : Outcome (List Slot)) : Prop where
  length : outcome.answer.length = names.length
  prelude : outcome.env.prelude = env.prelude
  distinct : outcome.env.bindings.names.Nodup
  replay : outcome.events.foldl Event.replay env.bindings.shown = outcome.env.bindings.shown
  noValue : Event.namesOf "no value" outcome.events =
    (emptyNames (names.zip outcome.answer)).map some
  protectedName : Event.namesOf "ignoring rebind of prelude name" outcome.events =
    (protectedNames env.prelude (names.zip outcome.answer)).map some
  skipping : Event.fieldsOf "skipping declaration" outcome.events = skipped

/-- The slots of one outcome, and behind them those of another that began where the first ended. -/
def Outcome.followed (before after : Outcome (List Slot)) : Outcome (List Slot) :=
  { answer := before.answer ++ after.answer
    env := after.env
    events := before.events ++ after.events }

namespace Accounts

theorem nothing {env : Environment} (distinct : env.bindings.names.Nodup) :
    Accounts env [] [] { answer := [], env } :=
  ⟨rfl, rfl, distinct, rfl, rfl, rfl, rfl⟩

theorem followed {env : Environment} {names others : List String}
    {skipped more : List (List (String × String))} {before after : Outcome (List Slot)}
    (first : Accounts env names skipped before)
    (second : Accounts before.env others more after) :
    Accounts env (names ++ others) (skipped ++ more) (before.followed after) where
  length := by simp [Outcome.followed, first.length, second.length]
  prelude := second.prelude.trans first.prelude
  distinct := second.distinct
  replay := by
    rw [Outcome.followed, List.foldl_append, first.replay, second.replay]
  noValue := by
    simp [Outcome.followed, first.noValue, second.noValue, emptyNames,
      List.zip_append first.length.symm]
  protectedName := by
    simp [Outcome.followed, first.protectedName, second.protectedName, first.prelude,
      protectedNames, List.zip_append first.length.symm]
  skipping := by simp [Outcome.followed, first.skipping, second.skipping]

/-- A value for a name: it is bound, or the name is protected and nothing changes. -/
theorem define {env : Environment} (distinct : env.bindings.names.Nodup) (name : String)
    (value : Value) :
    let outcome := Environment.define name value env
    Accounts env [name] [] { outcome with answer := [some value] } := by
  intro outcome
  by_cases known : env.prelude.contains name
  · have refused : outcome = { answer := false, env, events := [.protectedName name] } := by
      simp [outcome, Environment.define, known]
    rw [refused]
    exact ⟨rfl, rfl, distinct, rfl, rfl, by simp [protectedNames, known]; rfl, rfl⟩
  · have bound : outcome =
        { answer := true
          env := { env with bindings := env.bindings.insert name value }
          events := [.define name value] } := by
      simp [outcome, Environment.define, known]
    rw [bound]
    refine ⟨rfl, rfl, Bindings.nodup_insert distinct name value, ?_, rfl, ?_, rfl⟩
    · exact (Bindings.shown_insert distinct name value).symm
    · simp [protectedNames, known]; rfl

/-- No value for a name: that is reported, and a binding from before goes. -/
theorem undefine {env : Environment} (distinct : env.bindings.names.Nodup) (name : String)
    (cause : EvalError) :
    let outcome := Environment.undefine name env
    Accounts env [name] []
      { answer := [none]
        env := outcome.env
        events := .noValue name cause :: outcome.events } := by
  intro outcome
  cases found : env.bindings.get? name with
  | none =>
    have same : outcome = { answer := none, env } := by
      simp [outcome, Environment.undefine, found]
    rw [same]
    exact ⟨rfl, rfl, distinct, rfl, rfl, rfl, rfl⟩
  | some value =>
    have gone : outcome =
        { answer := some value
          env := { env with bindings := env.bindings.erase name }
          events := [.undefine name] } := by
      simp [outcome, Environment.undefine, found]
    rw [gone]
    refine ⟨rfl, rfl, Bindings.nodup_erase distinct name, ?_, rfl, rfl, rfl⟩
    exact (Bindings.shown_erase env.bindings name).symm

end Accounts

theorem Action.discard_apply {α : Type} (action : Action α) (env : Environment) :
    (discard action : Action Unit) env =
      { answer := (), env := (action env).env, events := (action env).events } :=
  congrArg (Outcome.mk () (action env).env) (List.append_nil _)

/-- One name: what comes of its initialiser decides whether it is bound or unbound. -/
theorem evalNames_singleton (max : Nat) (zero : Option Value) (name : String)
    (values : List Expr) (env : Environment) :
    evalNames max zero [name] values env =
      match (initialValue max zero name values.head? env).answer with
      | .ok value => { Environment.define name value env with answer := [some value] }
      | .error e =>
        let outcome := Environment.undefine name env
        { answer := [none], env := outcome.env, events := .noValue name e :: outcome.events } := by
  obtain ⟨same, silent⟩ := initialValue_reads max zero name values.head? env
  cases result : (initialValue max zero name values.head? env).answer <;>
    simp [evalNames, bind, Action.andThen, pure, Action.answer, same, silent, result, slotOf,
      Action.report, Environment.bindSlot, Action.discard_apply]

theorem evalNames_cons (max : Nat) (zero : Option Value) (name : String) (names : List String)
    (values : List Expr) (env : Environment) :
    let one := evalNames max zero [name] values env
    evalNames max zero (name :: names) values env =
      one.followed (evalNames max zero names values.tail one.env) := by
  simp [evalNames, bind, Action.andThen, pure, Action.answer, Outcome.followed]

theorem eval_value_cons (settings : Settings) (keyword : ValueKeyword) (spec : ValueSpec)
    (specs : List ValueSpec) (env : Environment) :
    let one := spec.eval settings env
    (Declaration.value keyword (spec :: specs)).eval settings env =
      one.followed ((Declaration.value keyword specs).eval settings one.env) := by
  simp [Declaration.eval, evalSpecs, bind, Action.andThen, pure, Action.answer, Outcome.followed]

theorem evalDeclarations_cons (settings : Settings) (d : Declaration)
    (declarations : List Declaration) (env : Environment) :
    let one := d.eval settings env
    evalDeclarations settings (d :: declarations) env =
      one.followed (evalDeclarations settings declarations one.env) := by
  simp [evalDeclarations, bind, Action.andThen, pure, Action.answer, Outcome.followed]

theorem evalNames_accounts (max : Nat) (zero : Option Value) (names : List String)
    (values : List Expr) {env : Environment} (distinct : env.bindings.names.Nodup) :
    Accounts env names [] (evalNames max zero names values env) := by
  induction names generalizing values env with
  | nil => exact .nothing distinct
  | cons name names ih =>
    have one : Accounts env [name] [] (evalNames max zero [name] values env) := by
      rw [evalNames_singleton]
      split
      · exact .define distinct name _
      · exact .undefine distinct name _
    rw [evalNames_cons]
    exact one.followed (ih values.tail one.distinct)

theorem Declaration.eval_accounts (settings : Settings) (d : Declaration) {env : Environment}
    (distinct : env.bindings.names.Nodup) :
    Accounts env d.names d.skippedFields.toList (d.eval settings env) := by
  cases d with
  | skipped kind tokens => exact ⟨rfl, rfl, distinct, rfl, rfl, rfl, rfl⟩
  | value keyword specs =>
    induction specs generalizing env with
    | nil => exact .nothing distinct
    | cons spec specs ih =>
      have one : Accounts env spec.names [] (spec.eval settings env) :=
        evalNames_accounts _ _ _ _ distinct
      rw [eval_value_cons]
      exact one.followed (ih one.distinct)

theorem evalDeclarations_accounts (settings : Settings) (declarations : List Declaration)
    {env : Environment} (distinct : env.bindings.names.Nodup) :
    Accounts env (declarations.flatMap (·.names)) (declarations.filterMap (·.skippedFields))
      (evalDeclarations settings declarations env) := by
  induction declarations generalizing env with
  | nil => exact .nothing distinct
  | cons d declarations ih =>
    have one := d.eval_accounts settings distinct
    have all := one.followed (ih one.distinct)
    rw [evalDeclarations_cons]
    have fields : (d :: declarations).filterMap (·.skippedFields) =
        d.skippedFields.toList ++ declarations.filterMap (·.skippedFields) := by
      cases known : d.skippedFields <;> simp [known]
    rwa [fields]

namespace Session

/-- The sessions that there are: over any prelude, behind any series of requests, and with any
operations on the table between them. -/
inductive Reached : Session → Prop where
  | start (settings : Settings) (style : RuneStyle) (prelude : Bindings) :
      Reached { settings, style, env := { prelude } }
  | serve {s : Session} (reached : Reached s) (request : Request) : Reached (s.serve request)
  | perform {s : Session} (reached : Reached s) (operation : Operation) :
      Reached { s with env := operation.perform s.env }

/-- A request does to the table what one operation does. -/
theorem serve_env (s : Session) (request : Request) :
    ∃ operation : Operation, (s.serve request).env = operation.perform s.env := by
  cases request with
  | evaluate source | evaluateLine source => exact ⟨.source s.settings source, rfl⟩
  | reset => exact ⟨.clear, rfl⟩
  | define name value => exact ⟨.define name value, rfl⟩

end Session

/-- The table of a session is behind a run of operations over the prelude that it began with. -/
theorem Session.Reached.ran {s : Session} (reached : s.Reached) :
    ∃ prelude operations, s.env = ({ prelude } : Environment).run operations := by
  induction reached with
  | start settings style prelude => exact ⟨prelude, [], rfl⟩
  | @serve s _ request ih =>
    obtain ⟨prelude, operations, ran⟩ := ih
    obtain ⟨operation, same⟩ := s.serve_env request
    refine ⟨prelude, operations ++ [operation], ?_⟩
    simp [Environment.run, same, ran]
  | perform _ operation ih =>
    obtain ⟨prelude, operations, ran⟩ := ih
    refine ⟨prelude, operations ++ [operation], ?_⟩
    simp [Environment.run, ran]

/-- No name is bound twice in a session. -/
theorem Session.Reached.distinct {s : Session} (reached : s.Reached) :
    s.env.bindings.names.Nodup := by
  obtain ⟨prelude, operations, ran⟩ := reached.ran
  obtain ⟨-, valid⟩ :=
    ({ prelude } : Environment).run_reflects [] operations (History.Reflects.empty prelude)
  exact ran ▸ valid.distinct

/-- In every session, the events of one evaluation account for it. A source that cannot be read
reports that and nothing else, and the session stays as it was. Otherwise the events, applied one
after the other to the listing of the bindings from before, give the listing from after; and the
empty slots, the values for protected names and the declarations without values are reported in
their order, each of them once and nothing else in their place. -/
theorem Session.Reached.events_account {s : Session} (reached : s.Reached) (source : String) :
    let step := s.evaluate source
    (∀ e, Declaration.parse source = .error e →
      step.answer = .error e ∧ step.events = [.parseFailed e.message] ∧ step.session = s) ∧
    ∀ declarations, Declaration.parse source = .ok declarations → ∃ slots,
      let names := declarations.flatMap (·.names)
      step.answer = .ok slots ∧ slots.length = names.length ∧
      step.events.foldl Event.replay s.env.bindings.shown = step.session.env.bindings.shown ∧
      Event.namesOf "no value" step.events = (emptyNames (names.zip slots)).map some ∧
      Event.namesOf "ignoring rebind of prelude name" step.events =
        (protectedNames s.env.prelude (names.zip slots)).map some ∧
      Event.fieldsOf "skipping declaration" step.events =
        declarations.filterMap (·.skippedFields) := by
  intro step
  constructor
  · intro e parsed
    simp [step, evaluate, run, GoDecl.evaluate, parsed, bind, Action.andThen, pure, Action.answer,
      Action.report]
  · intro declarations parsed
    have batch := evalDeclarations_accounts s.settings declarations reached.distinct
    have ran : step = s.run fun env =>
        let outcome := evalDeclarations s.settings declarations env
        { answer := .ok outcome.answer, env := outcome.env
          events := .evaluating declarations.length :: outcome.events } := by
      simp [step, evaluate, run, GoDecl.evaluate, parsed, bind, Action.andThen, pure,
        Action.answer, Action.report]
    rw [ran]
    exact ⟨_, rfl, batch.length, batch.replay, batch.noValue, batch.protectedName, batch.skipping⟩

/-- A binding that goes, one that is overwritten, a new one and a protected name, behind a function;
and a source that ends too early. -/
theorem Session.Reached.events_account_of_mixed :
    let s := ({} : Session).serve (.evaluate "var a, b = 1, 2")
    let step := s.evaluate "func f() {}; var a, b, c, true = 1 / 0, 'x', b, 4"
    let failed := s.evaluate "var a ="
    s.Reached ∧ s.env.bindings.shown = [("a", "Integer(1)"), ("b", "Integer(2)")] ∧
    step.events.map (fun e => (e.message, e.fields.lookup "name")) =
      [("evaluating", none), ("skipping declaration", none), ("no value", some "a"),
        ("undefine", some "a"), ("define", some "b"), ("define", some "c"),
        ("ignoring rebind of prelude name", some "true")] ∧
    step.session.env.bindings.shown = [("b", "Char('x')"), ("c", "Char('x')")] ∧
    step.events.foldl Event.replay s.env.bindings.shown = step.session.env.bindings.shown ∧
    failed.session = s ∧ failed.events.map (·.message) = ["parse failed"] := by
  have reached : (({} : Session).serve (.evaluate "var a, b = 1, 2")).Reached :=
    .serve (.start {} .scalar standardPrelude) _
  have mixed := reached.events_account "func f() {}; var a, b, c, true = 1 / 0, 'x', b, 4"
  have early := reached.events_account "var a ="
  refine ⟨reached, by decide +kernel, by decide +kernel, by decide +kernel, ?_, ?_⟩
  · have reads : (Declaration.parse "func f() {}; var a, b, c, true = 1 / 0, 'x', b, 4").isOk := by
      decide +kernel
    cases parsed : Declaration.parse "func f() {}; var a, b, c, true = 1 / 0, 'x', b, 4" with
    | error e =>
      rw [parsed] at reads
      cases reads
    | ok declarations =>
      obtain ⟨slots, -, -, replayed, -⟩ := mixed.2 declarations parsed
      exact replayed
  · have fails : (Declaration.parse "var a =").isOk = false := by decide +kernel
    cases parsed : Declaration.parse "var a =" with
    | error e =>
      obtain ⟨-, report, kept⟩ := early.1 e parsed
      exact ⟨kept, by rw [report]; rfl⟩
    | ok declarations =>
      rw [parsed] at fails
      cases fails

end GoDecl
