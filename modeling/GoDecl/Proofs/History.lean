import GoDecl.Proofs.Slots
import GoDecl.Session
import Mathlib.Data.List.Induction

/-! The table as a function of its history. Whatever operations run on a table, what it holds is
told by the changes they ask for: a name has the value that the last change gave it, and the names
stand in the order in which their present bindings began. -/
namespace GoDecl

/-- One change of the user bindings, as it is asked for. -/
inductive Change where
  | slot (name : String) (given : Slot)
  | clear

namespace Change

/-- Whether a change affects a name. -/
def touches (name : String) : Change → Bool
  | .slot other _ => other = name
  | .clear => true

/-- What the names that a change affects have afterwards. -/
def outcome : Change → Slot
  | .slot _ given => given
  | .clear => none

def apply (prelude b : Bindings) : Change → Bindings
  | .slot name given => Environment.slotBindings prelude name given b
  | .clear => []

end Change

/-- Changes, the first one first. -/
abbrev History := List Change

namespace History

/-- What the last change that affects a name gave it. -/
def value (h : History) (name : String) : Slot :=
  (h.reverse.find? (·.touches name)).bind Change.outcome

/-- The present binding of a name began with the change at `moment`: that change bound the name,
which had no value before it, and no later change took the value away. -/
structure Began (h : History) (name : String) (moment : Nat) : Prop where
  binds : ∃ v, h[moment]? = some (.slot name (some v))
  unbound : value (h.take moment) name = none
  kept : ∀ later c, moment < later → h[later]? = some c → c.touches name → c.outcome ≠ none

@[simp] theorem value_append (h : History) (c : Change) (name : String) :
    value (h ++ [c]) name = if c.touches name then c.outcome else value h name := by
  simp only [value, List.reverse_append, List.reverse_singleton, List.singleton_append,
    List.find?_cons]
  split <;> simp_all

theorem Began.lt_length {h : History} {name : String} {moment : Nat}
    (began : Began h name moment) : moment < h.length := by
  obtain ⟨v, found⟩ := began.binds
  exact (List.getElem?_eq_some_iff.mp found).1

/-- One more change ends a binding, keeps it, or begins it. -/
theorem began_append_iff (h : History) (c : Change) (name : String) (moment : Nat) :
    Began (h ++ [c]) name moment ↔
      Began h name moment ∧ (c.touches name → c.outcome ≠ none) ∨
      moment = h.length ∧ value h name = none ∧ ∃ v, c = .slot name (some v) := by
  constructor
  · intro began
    obtain ⟨v, found⟩ := began.binds
    have bound := began.lt_length
    rw [List.length_append, List.length_singleton] at bound
    by_cases old : moment < h.length
    · left
      refine ⟨⟨⟨v, ?_⟩, ?_, ?_⟩, ?_⟩
      · rwa [List.getElem?_append_left old] at found
      · have unbound := began.unbound
        rwa [List.take_append_of_le_length (by omega)] at unbound
      · intro later d after found
        have inside := (List.getElem?_eq_some_iff.mp found).1
        exact began.kept later d after (by rwa [List.getElem?_append_left inside])
      · exact began.kept h.length c old (by simp)
    · right
      have last : moment = h.length := by omega
      subst last
      refine ⟨rfl, ?_, v, ?_⟩
      · simpa using began.unbound
      · simpa using found
  · rintro (⟨began, harmless⟩ | ⟨rfl, unbound, v, rfl⟩)
    · have old := began.lt_length
      obtain ⟨v, found⟩ := began.binds
      refine ⟨⟨v, by rwa [List.getElem?_append_left old]⟩, ?_, ?_⟩
      · rw [List.take_append_of_le_length (by omega)]
        exact began.unbound
      · intro later d after found
        by_cases inside : later < h.length
        · exact began.kept later d after (by rwa [List.getElem?_append_left inside] at found)
        · have bound := (List.getElem?_eq_some_iff.mp found).1
          rw [List.length_append, List.length_singleton] at bound
          have last : later = h.length := by omega
          subst last
          simp only [List.getElem?_concat_length, Option.some.injEq] at found
          exact found ▸ harmless
    · refine ⟨⟨v, by simp⟩, by simpa using unbound, ?_⟩
      intro later d after found
      have bound := (List.getElem?_eq_some_iff.mp found).1
      rw [List.length_append, List.length_singleton] at bound
      omega

theorem Began.bound {h : History} {name : String} {moment : Nat} (began : Began h name moment) :
    value h name ≠ none := by
  induction h using List.reverseRecOn with
  | nil => exact absurd began.lt_length (by simp)
  | append_singleton h c ih =>
    rw [value_append]
    rcases (began_append_iff h c name moment).mp began with ⟨old, harmless⟩ | ⟨_, _, v, rfl⟩
    · split
      · next touched => exact harmless touched
      · exact ih old
    · simp [Change.touches, Change.outcome]

/-- User bindings that are what a history of changes tells them to be. -/
structure Reflects (prelude : Bindings) (h : History) (b : Bindings) : Prop where
  distinct : b.names.Nodup
  apart : ∀ name ∈ b.names, ¬ prelude.contains name
  get : ∀ name, ¬ prelude.contains name → b.get? name = value h name
  began : ∀ name ∈ b.names, ∃ moment, Began h name moment
  ordered : b.names.Pairwise fun first second =>
    ∀ i j, Began h first i → Began h second j → i < j

namespace Reflects

theorem empty (prelude : Bindings) : Reflects prelude [] [] where
  distinct := .nil
  apart := by simp [Bindings.names]
  get := by simp [Bindings.get?, value]
  began := by simp [Bindings.names]
  ordered := .nil

variable {prelude b : Bindings} {h : History}

theorem value_of_mem (valid : Reflects prelude h b) {name : String} (member : name ∈ b.names) :
    value h name ≠ none := by
  rw [← valid.get name (valid.apart name member)]
  exact Option.isSome_iff_ne_none.mp ((b.mem_names_iff name).mp member)

/-- The binding of a bound name began before the next change. -/
theorem began_of_append (valid : Reflects prelude h b) {name : String} (member : name ∈ b.names)
    {c : Change} {moment : Nat} (began : Began (h ++ [c]) name moment) : Began h name moment := by
  rcases (began_append_iff h c name moment).mp began with ⟨old, _⟩ | ⟨_, unbound, _⟩
  · exact old
  · exact absurd unbound (valid.value_of_mem member)

theorem began_append (valid : Reflects prelude h b) {name : String} (member : name ∈ b.names)
    {c : Change} (harmless : c.touches name → c.outcome ≠ none) :
    ∃ moment, Began (h ++ [c]) name moment := by
  obtain ⟨moment, began⟩ := valid.began name member
  exact ⟨moment, (began_append_iff h c name moment).mpr (.inl ⟨began, harmless⟩)⟩

/-- A change that binds no new name leaves some of the names, in their order. -/
theorem append_of_sublist (valid : Reflects prelude h b) {after : Bindings} {c : Change}
    (sublist : after.names.Sublist b.names)
    (get : ∀ name, ¬ prelude.contains name →
      after.get? name = if c.touches name then c.outcome else b.get? name)
    (harmless : ∀ name ∈ after.names, c.touches name → c.outcome ≠ none) :
    Reflects prelude (h ++ [c]) after where
  distinct := sublist.nodup valid.distinct
  apart name member := valid.apart name (sublist.subset member)
  get name free := by rw [get name free, value_append, valid.get name free]
  began name member := valid.began_append (sublist.subset member) (harmless name member)
  ordered := by
    apply (valid.ordered.sublist sublist).imp_of_mem
    intro first second firstMember secondMember before i j beganFirst beganSecond
    exact before i j (valid.began_of_append (sublist.subset firstMember) beganFirst)
      (valid.began_of_append (sublist.subset secondMember) beganSecond)

/-- A new name goes to the end, and its binding began last. -/
theorem append_of_new (valid : Reflects prelude h b) {name : String} (v : Value)
    (free : ¬ prelude.contains name) (new : name ∉ b.names) :
    Reflects prelude (h ++ [.slot name (some v)]) (b.insert name v) := by
  have unbound : value h name = none := by
    rw [← valid.get name free]
    simpa [b.mem_names_iff name] using new
  have names : (b.insert name v).names = b.names ++ [name] := by simp [new]
  have harmless (other : String) :
      (Change.slot name (some v)).touches other → (Change.slot name (some v)).outcome ≠ none := by
    simp [Change.outcome]
  refine ⟨?_, ?_, ?_, ?_, ?_⟩
  · rw [names]
    exact List.nodup_append.mpr ⟨valid.distinct, by simp, by grind⟩
  · rw [names]
    grind [valid.apart]
  · intro other freeOther
    rw [Bindings.get?_insert, value_append, valid.get other freeOther]
    simp [Change.touches, Change.outcome]
  · intro other member
    rw [names, List.mem_append, List.mem_singleton] at member
    rcases member with old | rfl
    · exact valid.began_append old (harmless other)
    · exact ⟨h.length, (began_append_iff ..).mpr (.inr ⟨rfl, unbound, v, rfl⟩)⟩
  · rw [names, List.pairwise_append]
    refine ⟨?_, by simp, ?_⟩
    · apply valid.ordered.imp_of_mem
      intro first second firstMember secondMember before i j beganFirst beganSecond
      exact before i j (valid.began_of_append firstMember beganFirst)
        (valid.began_of_append secondMember beganSecond)
    · intro first firstMember second secondMember i j beganFirst beganSecond
      rw [List.mem_singleton] at secondMember
      subst secondMember
      have early := (valid.began_of_append firstMember beganFirst).lt_length
      rcases (began_append_iff ..).mp beganSecond with ⟨old, _⟩ | ⟨late, _⟩
      · exact absurd unbound old.bound
      · omega

/-- Every single change keeps the bindings true to the history. -/
theorem append (valid : Reflects prelude h b) (c : Change) :
    Reflects prelude (h ++ [c]) (c.apply prelude b) := by
  cases c with
  | clear =>
    refine valid.append_of_sublist (List.nil_sublist _) (fun _ _ => rfl) ?_
    simp [Change.apply, Bindings.names]
  | slot name given =>
    have get (other : String) (free : ¬ prelude.contains other) :
        ((Change.slot name given).apply prelude b).get? other =
          if (Change.slot name given).touches other then given else b.get? other := by
      simpa [Change.touches, Change.apply] using
        Environment.get?_slotBindings prelude b name other given free
    cases given with
    | none =>
      refine valid.append_of_sublist ?_ get ?_
      · simp [Change.apply, Environment.slotBindings]
      · intro other member touched
        simp only [Change.apply, Environment.slotBindings, Bindings.names_erase] at member
        simp only [Change.touches, decide_eq_true_eq] at touched
        grind
    | some v =>
      have harmless : (Change.slot name (some v)).outcome ≠ none := by simp [Change.outcome]
      by_cases known : prelude.contains name
      · have same : (Change.slot name (some v)).apply prelude b = b := if_pos known
        exact valid.append_of_sublist (by simp [same]) get fun _ _ _ => harmless
      by_cases bound : name ∈ b.names
      · refine valid.append_of_sublist ?_ get fun _ _ _ => harmless
        simp [Change.apply, Environment.slotBindings, known, bound]
      · have inserted : (Change.slot name (some v)).apply prelude b = b.insert name v :=
          if_neg known
        rw [inserted]
        exact valid.append_of_new v known bound

theorem append_all (valid : Reflects prelude h b) (changes : List Change) :
    Reflects prelude (h ++ changes) (changes.foldl (Change.apply prelude) b) := by
  induction changes generalizing h b with
  | nil => simpa using valid
  | cons c rest ih => simpa using ih (valid.append c)

end Reflects

end History

/-- What can be done with a table. -/
inductive Operation where
  | define (name : String) (value : Value)
  | undefine (name : String)
  | bindSlot (name : String) (slot : Slot)
  | clear
  | enter (max : Nat)
  | exit
  | expr (max : Nat) (e : Expr)
  | source (settings : Settings) (text : String)

namespace Operation

/-- The table after an operation. A level that cannot be entered and a source that cannot be read
leave it as it was. -/
def perform (env : Environment) : Operation → Environment
  | .define name value => (Environment.define name value env).env
  | .undefine name => (Environment.undefine name env).env
  | .bindSlot name slot => (Environment.bindSlot name slot env).env
  | .clear => env.clear
  | .enter max =>
    match env.enter max with
    | .ok deeper => deeper
    | .error _ => env
  | .exit => env.exit
  | .expr max e => (e.eval max env).env
  | .source settings text => (evaluate settings text env).env

/-- What an operation asks to change. A source asks for the slots that it answers, each under its
declared name. -/
def changes (env : Environment) : Operation → List Change
  | .define name value => [.slot name (some value)]
  | .undefine name => [.slot name none]
  | .bindSlot name slot => [.slot name slot]
  | .clear => [.clear]
  | .enter _ | .exit | .expr .. => []
  | .source settings text =>
    match Declaration.parse text, (evaluate settings text env).answer with
    | .ok declarations, .ok slots =>
      ((declarations.flatMap (·.names)).zip slots).map fun (name, slot) => .slot name slot
    | _, _ => []

end Operation

namespace Environment

def run (env : Environment) (operations : List Operation) : Environment :=
  operations.foldl Operation.perform env

/-- All that a run asks to change, in order. -/
def history (env : Environment) : List Operation → History
  | [] => []
  | operation :: rest => operation.changes env ++ (operation.perform env).history rest

theorem bindAll_bindings (env : Environment) (pairs : List (String × Slot)) :
    (env.bindAll pairs).bindings =
      (pairs.map fun (name, slot) => Change.slot name slot).foldl (Change.apply env.prelude)
        env.bindings := by
  induction pairs generalizing env with
  | nil => rfl
  | cons pair rest ih => rw [bindAll, ih, bindSlot_env]; rfl

end Environment

theorem evaluate_of_parse_ok (settings : Settings) (text : String) (env : Environment)
    (declarations : List Declaration) (parsed : Declaration.parse text = .ok declarations) :
    (evaluate settings text env).answer =
        .ok (evalDeclarations settings declarations env).answer ∧
      (evaluate settings text env).env = (evalDeclarations settings declarations env).env := by
  simp [evaluate, parsed, bind, Action.andThen, pure, Action.answer, Action.report]

theorem evaluate_of_parse_error (settings : Settings) (text : String) (env : Environment)
    (e : ParseError) (parsed : Declaration.parse text = .error e) :
    (evaluate settings text env).answer = .error e ∧ (evaluate settings text env).env = env := by
  simp [evaluate, parsed, bind, Action.andThen, pure, Action.answer, Action.report]

namespace Operation

/-- An operation keeps the prelude, and changes the bindings by what it asks for and in no other
way. -/
theorem perform_eq (env : Environment) (operation : Operation) :
    (operation.perform env).prelude = env.prelude ∧
      (operation.perform env).bindings =
        (operation.changes env).foldl (Change.apply env.prelude) env.bindings := by
  cases operation with
  | define name value =>
    rw [perform, Environment.define_env]
    by_cases known : env.prelude.contains name <;>
      simp [changes, Change.apply, Environment.slotBindings, known]
  | undefine name => simp [perform, changes, Change.apply, Environment.slotBindings]
  | bindSlot name slot => simp [perform, changes, Change.apply, Environment.bindSlot_env]
  | clear | exit => exact ⟨rfl, rfl⟩
  | enter max =>
    by_cases room : env.depth < max
    · rw [perform, env.enter_of_lt max room]
      exact ⟨rfl, rfl⟩
    · rw [perform, env.enter_of_le max (by omega)]
      exact ⟨rfl, rfl⟩
  | expr max e =>
    rw [perform, (e.eval_reads max env).1]
    exact ⟨rfl, rfl⟩
  | source settings text =>
    cases parsed : Declaration.parse text with
    | error e =>
      rw [perform, (evaluate_of_parse_error settings text env e parsed).2]
      simp [changes, parsed]
    | ok declarations =>
      obtain ⟨answer, after⟩ := evaluate_of_parse_ok settings text env declarations parsed
      rw [perform, after, evalDeclarations_env, Environment.bindAll_bindings]
      simp [changes, parsed, answer, Environment.bindAll_prelude]

end Operation

namespace Environment

/-- A run keeps the prelude, and leaves bindings that reflect its history. -/
theorem run_reflects (env : Environment) (before : History) (operations : List Operation)
    (valid : before.Reflects env.prelude env.bindings) :
    (env.run operations).prelude = env.prelude ∧
      (before ++ env.history operations).Reflects env.prelude (env.run operations).bindings := by
  induction operations generalizing env before with
  | nil =>
    rw [history, List.append_nil]
    exact ⟨rfl, valid⟩
  | cons operation rest ih =>
    obtain ⟨samePrelude, bindings⟩ := operation.perform_eq env
    have step := valid.append_all (operation.changes env)
    rw [← bindings, ← samePrelude] at step
    obtain ⟨restPrelude, restValid⟩ := ih (operation.perform env) _ step
    rw [samePrelude, List.append_assoc] at restValid
    exact ⟨restPrelude.trans samePrelude, restValid⟩

theorem define_answer (env : Environment) (name : String) (value : Value) :
    (define name value env).answer = !env.prelude.contains name := by
  unfold define
  split <;> simp_all

theorem booleans_of_standardPrelude (env : Environment) (standard : env.prelude = standardPrelude)
    (b : Bool) : Literal.eval env (.bool b) = .ok (.bool b) := by
  cases b <;> simp [Literal.eval, lookup, get?, standard] <;> rfl

/-- After every run of operations from a table over any prelude: the prelude is the same, the user
names are distinct and none of them is in the prelude, a name has the prelude's value or else the
one that the last change affecting it gave it, and the user names stand in the order in which their
present bindings began. A name can be defined unless it is in the prelude. Over the standard prelude
the two boolean words therefore always have their own values. -/
theorem run_is_told_by_history (prelude : Bindings) (operations : List Operation) :
    let env := ({ prelude } : Environment).run operations
    let h := ({ prelude } : Environment).history operations
    env.prelude = prelude ∧
    env.bindings.names.Nodup ∧
    (∀ name ∈ env.bindings.names, ¬ prelude.contains name) ∧
    (∀ name, env.get? name =
      if prelude.contains name then prelude.get? name else h.value name) ∧
    (∀ name ∈ env.bindings.names, ∃ moment, h.Began name moment) ∧
    env.bindings.names.Pairwise (fun first second =>
      ∀ i j, h.Began first i → h.Began second j → i < j) ∧
    (∀ name value, (define name value env).answer = false ↔ prelude.contains name) ∧
    (∀ b, Literal.eval (({} : Environment).run operations) (.bool b) = .ok (.bool b)) := by
  obtain ⟨same, valid⟩ :=
    ({ prelude } : Environment).run_reflects [] operations (History.Reflects.empty prelude)
  obtain ⟨standard, -⟩ :=
    ({} : Environment).run_reflects [] operations (History.Reflects.empty standardPrelude)
  refine ⟨same, valid.distinct, valid.apart, ?_, valid.began, valid.ordered, ?_, ?_⟩
  · intro name
    rw [get?_eq, same]
    split
    · rfl
    · next free => exact valid.get name free
  · intro name value
    rw [define_answer, same]
    simp
  · exact booleans_of_standardPrelude _ standard

/-- Of two names, the one that was removed and defined again comes after the one that was only
overwritten, and a name of the prelude stays out. -/
theorem run_is_told_by_history_of_redefinition :
    let operations : List Operation := [.define "a" (.int 1), .define "b" (.int 2),
      .define "true" (.int 3), .undefine "a", .define "b" (.int 4), .define "a" (.int 5)]
    let env := ({} : Environment).run operations
    let h := ({} : Environment).history operations
    env.bindings.names = ["b", "a"] ∧ (∃ i j, h.Began "b" i ∧ h.Began "a" j ∧ i < j) ∧
    env.get? "b" = some (.int 4) ∧ env.get? "true" = some (.bool true) := by
  intro operations env h
  obtain ⟨-, -, -, value, began, ordered, -⟩ := run_is_told_by_history standardPrelude operations
  have names : env.bindings.names = ["b", "a"] := by decide
  change env.bindings.names.Pairwise _ at ordered
  rw [names, List.pairwise_pair] at ordered
  obtain ⟨i, beganB⟩ := began "b" (by decide)
  obtain ⟨j, beganA⟩ := began "a" (by decide)
  exact ⟨names, ⟨i, j, beganB, beganA, ordered i j beganB beganA⟩, value "b", value "true"⟩

end Environment

end GoDecl
