import GoDecl.Decl.Eval
import GoDecl.Proofs.Evaluation

/-! What a batch of declarations does to the table. Specs and declarations nest only in the source:
a batch is one row of names, each with its initialiser, and the table afterwards is the table before
with one slot after the other bound in it. -/
namespace GoDecl

namespace Environment

@[simp] theorem define_env (env : Environment) (name : String) (value : Value) :
    (define name value env).env =
      if env.prelude.contains name then env
      else { env with bindings := env.bindings.insert name value } := by
  unfold define
  split <;> rfl

@[simp] theorem undefine_env (env : Environment) (name : String) :
    (undefine name env).env = { env with bindings := env.bindings.erase name } := by
  unfold undefine
  split
  · rfl
  · next unbound => rw [Bindings.erase_of_get?_none _ _ unbound]

/-- The user bindings after a slot is bound. -/
def slotBindings (prelude : Bindings) (name : String) (slot : Slot) (b : Bindings) : Bindings :=
  match slot with
  | some value => if prelude.contains name then b else b.insert name value
  | none => b.erase name

theorem bindSlot_env (env : Environment) (name : String) (slot : Slot) :
    (bindSlot name slot env).env =
      { env with bindings := slotBindings env.prelude name slot env.bindings } := by
  cases slot with
  | none => exact undefine_env env name
  | some value =>
    refine (define_env env name value).trans ?_
    simp only [slotBindings]
    split <;> rfl

theorem get?_eq (env : Environment) (name : String) :
    env.get? name =
      if env.prelude.contains name then env.prelude.get? name else env.bindings.get? name := by
  cases found : env.prelude.get? name <;> simp [get?, Bindings.contains, found]

/-- Slots bound one after the other. -/
def bindAll (env : Environment) : List (String × Slot) → Environment
  | [] => env
  | (name, slot) :: rest => (bindSlot name slot env).env.bindAll rest

@[simp] theorem bindAll_append (env : Environment) (first second : List (String × Slot)) :
    env.bindAll (first ++ second) = (env.bindAll first).bindAll second := by
  induction first generalizing env with
  | nil => rfl
  | cons pair rest ih => exact ih _

theorem bindAll_prelude (env : Environment) (pairs : List (String × Slot)) :
    (env.bindAll pairs).prelude = env.prelude := by
  induction pairs generalizing env with
  | nil => rfl
  | cons pair rest ih => rw [bindAll, ih, bindSlot_env]

theorem bindAll_depth (env : Environment) (pairs : List (String × Slot)) :
    (env.bindAll pairs).depth = env.depth := by
  induction pairs generalizing env with
  | nil => rfl
  | cons pair rest ih => rw [bindAll, ih, bindSlot_env]

theorem get?_slotBindings (prelude b : Bindings) (name other : String) (slot : Slot)
    (free : ¬ prelude.contains other) :
    (slotBindings prelude name slot b).get? other =
      if name = other then slot else b.get? other := by
  cases slot with
  | none => exact Bindings.get?_erase ..
  | some value =>
    simp only [slotBindings]
    split
    · next refused =>
      have apart : name ≠ other := by rintro rfl; exact free refused
      rw [if_neg apart]
    · exact Bindings.get?_insert ..

/-- Names of the prelude keep their value; another name takes the slot that is bound to it. -/
theorem get?_bindSlot (env : Environment) (name other : String) (slot : Slot) :
    (bindSlot name slot env).env.get? other =
      if env.prelude.contains other then env.get? other
      else if name = other then slot else env.get? other := by
  rw [bindSlot_env]
  simp only [get?_eq]
  by_cases known : env.prelude.contains other
  · simp only [if_pos known]
  · simp only [if_neg known]
    exact get?_slotBindings _ _ _ _ _ known

end Environment

/-- The slot of the last occurrence of a name. -/
def lastSlot (pairs : List (String × Slot)) (name : String) : Option Slot :=
  pairs.reverse.lookup name

theorem lastSlot_cons (first name : String) (slot : Slot) (rest : List (String × Slot)) :
    lastSlot ((first, slot) :: rest) name =
      (lastSlot rest name).or (if first = name then some slot else none) := by
  simp only [lastSlot, List.reverse_cons, List.lookup_append, List.lookup_cons, List.lookup_nil]
  grind

/-- The last slot of a name wins, whatever was bound to it before. -/
theorem Environment.get?_bindAll (env : Environment) (pairs : List (String × Slot))
    (name : String) :
    (env.bindAll pairs).get? name =
      if env.prelude.contains name then env.get? name
      else (lastSlot pairs name).getD (env.get? name) := by
  induction pairs generalizing env with
  | nil => simp [bindAll, lastSlot]
  | cons pair rest ih =>
    obtain ⟨first, slot⟩ := pair
    have same : (bindSlot first slot env).env.prelude = env.prelude := by rw [bindSlot_env]
    rw [bindAll, ih, same, get?_bindSlot, lastSlot_cons]
    by_cases known : env.prelude.contains name
    · simp [known]
    · cases lastSlot rest name <;> by_cases equal : first = name <;> simp [known, equal]

/-- A declared name and how it comes to its value. -/
structure Entry where
  name : String
  value : Evaluation

namespace Entry

/-- The slot of an entry in a table: the value, or nothing where there is an error. -/
def slot (entry : Entry) (env : Environment) : Slot := (entry.value env).answer.toOption

/-- The slots of a row of entries, each evaluated in the table as the ones before it left it. -/
def slots : List Entry → Environment → List Slot
  | [], _ => []
  | entry :: rest, env =>
    let slot := entry.slot env
    slot :: slots rest (Environment.bindSlot entry.name slot env).env

/-- Names and their slots. -/
def pairs (entries : List Entry) (env : Environment) : List (String × Slot) :=
  (entries.map name).zip (slots entries env)

theorem pairs_cons (entry : Entry) (rest : List Entry) (env : Environment) :
    pairs (entry :: rest) env =
      (entry.name, entry.slot env) ::
        pairs rest (Environment.bindSlot entry.name (entry.slot env) env).env := rfl

@[simp] theorem slots_length (entries : List Entry) (env : Environment) :
    (slots entries env).length = entries.length := by
  induction entries generalizing env with
  | nil => rfl
  | cons entry rest ih => simp [slots, ih]

theorem slots_append (first second : List Entry) (env : Environment) :
    slots (first ++ second) env =
      slots first env ++ slots second (env.bindAll (pairs first env)) := by
  induction first generalizing env with
  | nil => rfl
  | cons entry rest ih => simp [slots, pairs_cons, Environment.bindAll, ih]

theorem pairs_append (first second : List Entry) (env : Environment) :
    pairs (first ++ second) env =
      pairs first env ++ pairs second (env.bindAll (pairs first env)) := by
  have lengths : (first.map name).length = (slots first env).length := by simp
  rw [pairs, List.map_append, slots_append, List.zip_append lengths]
  rfl

/-- The slot at a place is its own entry's, in the table with the slots before it bound. -/
theorem slots_getElem? (entries : List Entry) (env : Environment) (i : Nat) :
    (slots entries env)[i]? =
      entries[i]?.map fun entry => entry.slot (env.bindAll ((pairs entries env).take i)) := by
  induction entries generalizing env i with
  | nil => simp [slots]
  | cons entry rest ih =>
    cases i with
    | zero => simp [slots, Environment.bindAll]
    | succ i => simp [slots, pairs_cons, Environment.bindAll, ih]

/-- An action that answers the slots of a row of entries and leaves them bound. -/
structure FilledBy (entries : List Entry) (action : Action (List Slot)) : Prop where
  answer : ∀ env, (action env).answer = slots entries env
  env : ∀ env, (action env).env = env.bindAll (pairs entries env)

theorem FilledBy.append {first second : List Entry} {one other : Action (List Slot)}
    (before : FilledBy first one) (after : FilledBy second other) :
    FilledBy (first ++ second) (do return (← one) ++ (← other)) where
  answer env := by
    simp [bind, Action.andThen, pure, Action.answer, before.answer, before.env, after.answer,
      slots_append]
  env env := by
    simp [bind, Action.andThen, pure, Action.answer, before.env, after.env, pairs_append]

end Entry

open Entry

theorem initialValue_reads (max : Nat) (zero : Option Value) (name : String)
    (initialiser : Option Expr) : Evaluation.Reads (initialValue max zero name initialiser) := by
  cases initialiser with
  | none => exact fun _ => ⟨rfl, rfl⟩
  | some e => exact e.eval_reads max

@[simp] theorem slotOf_answer (name : String) (result : Except EvalError Value)
    (env : Environment) : (slotOf name result env).answer = result.toOption := by
  cases result <;> rfl

@[simp] theorem slotOf_env (name : String) (result : Except EvalError Value) (env : Environment) :
    (slotOf name result env).env = env := by
  cases result <;> rfl

/-- Names with the initialisers at the same place; names beyond them get `zero`. -/
def entriesOf (max : Nat) (zero : Option Value) (names : List String) (values : List Expr) :
    List Entry :=
  names.mapIdx fun i name => ⟨name, initialValue max zero name values[i]?⟩

theorem entriesOf_cons (max : Nat) (zero : Option Value) (name : String) (names : List String)
    (values : List Expr) :
    entriesOf max zero (name :: names) values =
      ⟨name, initialValue max zero name values.head?⟩ :: entriesOf max zero names values.tail := by
  simp [entriesOf, List.mapIdx_cons, List.head?_eq_getElem?]

theorem evalNames_filledBy (max : Nat) (zero : Option Value) (names : List String)
    (values : List Expr) :
    FilledBy (entriesOf max zero names values) (evalNames max zero names values) := by
  induction names generalizing values with
  | nil => exact ⟨fun _ => rfl, fun _ => rfl⟩
  | cons name names ih =>
    have same (env : Environment) := (initialValue_reads max zero name values.head? env).1
    rw [entriesOf_cons]
    constructor
    · intro env
      simp [evalNames, bind, Action.andThen, pure, Action.answer, same, (ih values.tail).answer,
        slots, slot]
    · intro env
      simp [evalNames, bind, Action.andThen, pure, Action.answer, same, (ih values.tail).env,
        pairs_cons, slot, Environment.bindAll]

def ValueSpec.entries (settings : Settings) (spec : ValueSpec) : List Entry :=
  entriesOf settings.maxDepth (spec.zero? settings) spec.names spec.values

def Declaration.entries (settings : Settings) : Declaration → List Entry
  | .value _ specs => specs.flatMap (·.entries settings)
  | .skipped .. => []

theorem evalSpecs_filledBy (settings : Settings) (specs : List ValueSpec) :
    FilledBy (specs.flatMap (·.entries settings))
      (do return (← evalSpecs settings specs).flatten) := by
  induction specs with
  | nil => exact ⟨fun _ => rfl, fun _ => rfl⟩
  | cons spec rest ih =>
    have both :=
      (evalNames_filledBy settings.maxDepth (spec.zero? settings) spec.names spec.values).append ih
    -- Only the grouping of the events differs between the two actions.
    exact ⟨fun env => both.answer env, fun env => both.env env⟩

theorem declaration_filledBy (settings : Settings) (d : Declaration) :
    FilledBy (d.entries settings) (d.eval settings) := by
  cases d with
  | value keyword specs => exact evalSpecs_filledBy settings specs
  | skipped kind tokens => exact ⟨fun _ => rfl, fun _ => rfl⟩

theorem evalDeclarations_filledBy (settings : Settings) (declarations : List Declaration) :
    FilledBy (declarations.flatMap (·.entries settings))
      (evalDeclarations settings declarations) := by
  induction declarations with
  | nil => exact ⟨fun _ => rfl, fun _ => rfl⟩
  | cons d rest ih => exact (declaration_filledBy settings d).append ih

/-- The names that a declaration declares, in order. -/
def Declaration.names : Declaration → List String
  | .value _ specs => specs.flatMap (·.names)
  | .skipped .. => []

theorem names_entriesOf (max : Nat) (zero : Option Value) (names : List String)
    (values : List Expr) : (entriesOf max zero names values).map Entry.name = names := by
  induction names generalizing values with
  | nil => rfl
  | cons name names ih => rw [entriesOf_cons, List.map_cons, ih]

theorem Declaration.names_entries (settings : Settings) (d : Declaration) :
    (d.entries settings).map Entry.name = d.names := by
  cases d with
  | value keyword specs =>
    simp [Declaration.entries, Declaration.names, ValueSpec.entries, List.map_flatMap,
      names_entriesOf]
  | skipped kind tokens => rfl

theorem names_entries (settings : Settings) (declarations : List Declaration) :
    (declarations.flatMap (·.entries settings)).map Entry.name =
      declarations.flatMap (·.names) := by
  simp [List.map_flatMap, Declaration.names_entries]

/-- The table after a batch is the table before with the batch's slots bound in it. -/
theorem evalDeclarations_env (settings : Settings) (declarations : List Declaration)
    (env : Environment) :
    (evalDeclarations settings declarations env).env =
      env.bindAll ((declarations.flatMap (·.names)).zip
        (evalDeclarations settings declarations env).answer) := by
  have filled := evalDeclarations_filledBy settings declarations
  rw [filled.env, filled.answer, pairs, names_entries]

/-- A batch answers one slot for each declared name in order, and the table agrees with the slots:
names of the prelude keep their value, other declared names have their last slot, and all the rest
stays as it was. Each slot is the outcome of the name's own initialiser in the table with the slots
before it bound. -/
theorem evalDeclarations_last_slot_wins (settings : Settings) (declarations : List Declaration)
    (env : Environment) :
    let names := declarations.flatMap (·.names)
    let after := evalDeclarations settings declarations env
    let slots := after.answer
    slots.length = names.length ∧
    (∀ i, slots[i]? = (declarations.flatMap (·.entries settings))[i]?.map fun entry : Entry =>
      entry.slot (env.bindAll ((names.zip slots).take i))) ∧
    (∀ name, after.env.get? name =
      if env.prelude.contains name then env.get? name
      else (lastSlot (names.zip slots) name).getD (env.get? name)) ∧
    after.env.prelude = env.prelude ∧ after.env.depth = env.depth := by
  have filled := evalDeclarations_filledBy settings declarations
  refine ⟨?_, ?_, ?_, ?_, ?_⟩
  · rw [filled.answer, slots_length, ← names_entries settings, List.length_map]
  · intro i
    rw [filled.answer, slots_getElem?, pairs, names_entries]
  · intro name
    rw [evalDeclarations_env, Environment.get?_bindAll]
  · rw [evalDeclarations_env, Environment.bindAll_prelude]
  · rw [evalDeclarations_env, Environment.bindAll_depth]

end GoDecl
