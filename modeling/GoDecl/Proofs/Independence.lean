import GoDecl.Proofs.Slots

/-! Specs that do not mention each other's names may come in any order. An initialiser sees of the
table only the names it mentions, so a spec among others has the slots it would have alone; and
slots of different names may be bound in any order. -/
namespace GoDecl

open Environment

namespace Expr

/-- The names whose values an expression asks for. The two boolean words are names too. -/
def mentions : Expr → List String
  | .literal (.bool b) => [Value.boolText b]
  | .name text => [text]
  | .unary _ operand => operand.mentions
  | .binary _ left right => left.mentions ++ right.mentions
  | .paren inner | .group inner => inner.mentions
  | .literal _ | .qualified .. | .other .. => []

end Expr

/-- Two tables that cannot be told apart by expressions that mention only `names`. -/
structure Environment.AgreeOn (names : List String) (env other : Environment) : Prop where
  prelude : env.prelude = other.prelude
  depth : env.depth = other.depth
  get? : ∀ name ∈ names, env.get? name = other.get? name

namespace Environment.AgreeOn

variable {names : List String} {env other : Environment}

theorem sub {fewer : List String} (agree : AgreeOn names env other) (within : fewer ⊆ names) :
    AgreeOn fewer env other :=
  ⟨agree.prelude, agree.depth, fun name member => agree.get? name (within member)⟩

theorem deeper (agree : AgreeOn names env other) : AgreeOn names env.deeper other.deeper :=
  ⟨agree.prelude, congrArg (· + 1) agree.depth, agree.get?⟩

theorem lookup (agree : AgreeOn names env other) {name : String} (member : name ∈ names) :
    env.lookup name = other.lookup name := by
  simp only [Environment.lookup, agree.get? name member]

/-- The same slot bound in both leaves them alike. -/
theorem bindSlot (agree : AgreeOn names env other) (name : String) (slot : Slot) :
    AgreeOn names (Environment.bindSlot name slot env).env
      (Environment.bindSlot name slot other).env where
  prelude := by rw [bindSlot_env, bindSlot_env]; exact agree.prelude
  depth := by rw [bindSlot_env, bindSlot_env]; exact agree.depth
  get? asked member := by
    rw [get?_bindSlot, get?_bindSlot, agree.prelude, agree.get? asked member]

/-- Names that are not asked for may be bound on one side. -/
theorem bindAll (pairs : List (String × Slot)) (apart : ∀ pair ∈ pairs, pair.1 ∉ names)
    (env : Environment) : AgreeOn names (env.bindAll pairs) env where
  prelude := bindAll_prelude env pairs
  depth := bindAll_depth env pairs
  get? asked member := by
    have unbound : lastSlot pairs asked = none := by
      simp only [lastSlot, List.lookup_eq_none_iff, List.mem_reverse]
      intro pair among
      simpa using fun same : asked = pair.1 => apart pair among (same ▸ member)
    rw [get?_bindAll, unbound]
    simp

end Environment.AgreeOn

/-- Nothing of the table but the mentioned names and the depth decides what an expression
answers. -/
theorem Expr.eval_of_agree (max : Nat) (e : Expr) {env other : Environment}
    (agree : AgreeOn e.mentions env other) :
    (e.eval max env).answer = (e.eval max other).answer := by
  induction e generalizing env other with
  | literal l =>
    rw [eval_leaf _ _ _ rfl, eval_leaf _ _ _ rfl, agree.depth]
    cases l with
    | bool b => rw [value, value, Literal.eval, Literal.eval, agree.lookup List.mem_cons_self]
    | int | float | string | rune | byteString | zeroEnded | byte | verbatim => rfl
  | name text =>
    rw [eval_leaf _ _ _ rfl, eval_leaf _ _ _ rfl, agree.depth, value, value,
      agree.lookup List.mem_cons_self]
  | qualified | other =>
    rw [eval_leaf _ _ _ rfl, eval_leaf _ _ _ rfl, agree.depth]
    rfl
  | unary op operand ih => rw [eval_unary, eval_unary, agree.depth, ih agree.deeper]
  | binary op left right ihLeft ihRight =>
    have agreeLeft := agree.deeper.sub (List.subset_append_left _ right.mentions)
    have agreeRight := agree.deeper.sub (List.subset_append_right left.mentions _)
    rw [eval_binary, eval_binary, agree.depth, ihLeft agreeLeft, ihRight agreeRight]
  | paren inner ih | group inner ih =>
    simp only [eval_paren, eval_group]
    rw [agree.depth, ih agree.deeper]

namespace ValueSpec

/-- The names that the initialisers of a spec mention. Values beyond the names are not
evaluated. -/
def mentions (spec : ValueSpec) : List String :=
  (spec.values.take spec.names.length).flatMap Expr.mentions

/-- Neither declares a name that the other declares or mentions. -/
structure Independent (a b : ValueSpec) : Prop where
  names : ∀ name ∈ a.names, name ∉ b.names
  left : ∀ name ∈ a.mentions, name ∉ b.names
  right : ∀ name ∈ b.mentions, name ∉ a.names

theorem Independent.symm {a b : ValueSpec} (apart : Independent a b) : Independent b a where
  names name inB inA := apart.names name inA inB
  left := apart.right
  right := apart.left

instance (a b : ValueSpec) : Decidable (Independent a b) :=
  decidable_of_iff ((∀ name ∈ a.names, name ∉ b.names) ∧
    (∀ name ∈ a.mentions, name ∉ b.names) ∧ ∀ name ∈ b.mentions, name ∉ a.names)
    ⟨fun ⟨names, left, right⟩ => ⟨names, left, right⟩,
      fun apart => ⟨apart.names, apart.left, apart.right⟩⟩

/-- The slots of a spec by itself in a table. -/
def slots (settings : Settings) (env : Environment) (spec : ValueSpec) : List Slot :=
  (spec.eval settings env).answer

/-- Its names with these slots. -/
def pairs (settings : Settings) (env : Environment) (spec : ValueSpec) : List (String × Slot) :=
  spec.names.zip (spec.slots settings env)

end ValueSpec

/-- Names are evaluated to the same slots in tables that agree on what the initialisers mention. -/
theorem slots_entriesOf_of_agree (max : Nat) (zero : Option Value) (names : List String)
    (values : List Expr) {env other : Environment}
    (agree : AgreeOn ((values.take names.length).flatMap Expr.mentions) env other) :
    Entry.slots (entriesOf max zero names values) env =
      Entry.slots (entriesOf max zero names values) other := by
  induction names generalizing values env other with
  | nil => rfl
  | cons name names ih =>
    have first : Entry.slot ⟨name, initialValue max zero name values.head?⟩ env =
        Entry.slot ⟨name, initialValue max zero name values.head?⟩ other := by
      cases values with
      | nil => rfl
      | cons e values =>
        have onFirst := agree.sub (List.subset_append_left e.mentions _)
        exact congrArg Except.toOption (e.eval_of_agree max onFirst)
    have onRest : AgreeOn ((values.tail.take names.length).flatMap Expr.mentions) env other := by
      cases values with
      | nil => exact agree.sub (by simp)
      | cons e values => exact agree.sub (List.subset_append_right e.mentions _)
    rw [entriesOf_cons, Entry.slots, Entry.slots, first,
      ih values.tail (onRest.bindSlot name _)]

namespace ValueSpec

variable (settings : Settings) {spec : ValueSpec} {specs : List ValueSpec} {env other : Environment}

theorem slots_of_agree (agree : AgreeOn spec.mentions env other) :
    spec.slots settings env = spec.slots settings other := by
  have filled := evalNames_filledBy settings.maxDepth (spec.zero? settings) spec.names spec.values
  rw [slots, slots, eval, filled.answer, filled.answer]
  exact slots_entriesOf_of_agree _ _ _ _ agree

theorem eval_env (spec : ValueSpec) (env : Environment) :
    (spec.eval settings env).env = env.bindAll (spec.pairs settings env) := by
  have filled := evalNames_filledBy settings.maxDepth (spec.zero? settings) spec.names spec.values
  rw [eval, filled.env, Entry.pairs, names_entriesOf, pairs, slots, eval, filled.answer]

/-- Whoever is independent of a spec does not notice that it was evaluated. -/
theorem Independent.slots_eq {a : ValueSpec} (apart : Independent a spec) (env : Environment) :
    spec.slots settings (a.eval settings env).env = spec.slots settings env := by
  rw [eval_env]
  refine slots_of_agree settings (.bindAll _ (fun pair member => ?_) env)
  have declared : pair.1 ∈ a.names := (List.of_mem_zip member).1
  exact fun mentioned => apart.right _ mentioned declared

/-- Independent specs have the slots that each has alone, and leave all of them bound. -/
theorem evalSpecs_of_independent (apart : specs.Pairwise Independent) (env : Environment) :
    (evalSpecs settings specs env).answer = specs.map (slots settings env) ∧
      (evalSpecs settings specs env).env = env.bindAll (specs.flatMap (pairs settings env)) := by
  induction specs generalizing env with
  | nil => exact ⟨rfl, rfl⟩
  | cons spec rest ih =>
    obtain ⟨apartFirst, apartRest⟩ := List.pairwise_cons.mp apart
    obtain ⟨answer, after⟩ := ih apartRest (spec.eval settings env).env
    have unseen : ∀ later ∈ rest, later.slots settings (spec.eval settings env).env =
        later.slots settings env :=
      fun later member => (apartFirst later member).slots_eq settings env
    have samePairs : rest.flatMap (pairs settings (spec.eval settings env).env) =
        rest.flatMap (pairs settings env) := by
      simp only [List.flatMap_def]
      rw [List.map_congr_left fun later member => ?_]
      rw [pairs, pairs, unseen later member]
    constructor
    · have split : (evalSpecs settings (spec :: rest) env).answer =
          spec.slots settings env ::
            (evalSpecs settings rest (spec.eval settings env).env).answer :=
        rfl
      rw [split, answer, List.map_congr_left unseen, List.map_cons]
    · have split : (evalSpecs settings (spec :: rest) env).env =
          (evalSpecs settings rest (spec.eval settings env).env).env := rfl
      rw [split, after, samePairs, eval_env, List.flatMap_cons, bindAll_append]

end ValueSpec

/-- The same table but for the order of the user names. -/
structure Environment.Alike (env other : Environment) : Prop where
  prelude : env.prelude = other.prelude
  depth : env.depth = other.depth
  bindings : ∀ name, env.bindings.get? name = other.bindings.get? name

namespace Environment.Alike

variable {env other : Environment}

theorem refl (env : Environment) : Alike env env := ⟨rfl, rfl, fun _ => rfl⟩

theorem trans {third : Environment} (one : Alike env other) (two : Alike other third) :
    Alike env third :=
  ⟨one.prelude.trans two.prelude, one.depth.trans two.depth,
    fun name => (one.bindings name).trans (two.bindings name)⟩

theorem get? (alike : Alike env other) (name : String) : env.get? name = other.get? name := by
  rw [get?_eq, get?_eq, alike.prelude, alike.bindings name]

theorem mem_names (alike : Alike env other) (name : String) :
    name ∈ env.bindings.names ↔ name ∈ other.bindings.names := by
  rw [Bindings.mem_names_iff, Bindings.mem_names_iff, alike.bindings name]

end Environment.Alike

/-- What a slot does to the binding of a name depends on that binding alone. -/
theorem Environment.bindings_bindSlot (env : Environment) (name asked : String) (slot : Slot) :
    (bindSlot name slot env).env.bindings.get? asked =
      if name = asked then
        if env.prelude.contains name ∧ slot.isSome then env.bindings.get? asked else slot
      else env.bindings.get? asked := by
  rw [bindSlot_env]
  cases slot with
  | none => simp [slotBindings]
  | some value =>
    simp only [slotBindings]
    split <;> grind [Bindings.get?_insert]

theorem Environment.Alike.bindSlot {env other : Environment} (alike : Alike env other)
    (name : String) (slot : Slot) :
    Alike (Environment.bindSlot name slot env).env (Environment.bindSlot name slot other).env where
  prelude := by rw [bindSlot_env, bindSlot_env]; exact alike.prelude
  depth := by rw [bindSlot_env, bindSlot_env]; exact alike.depth
  bindings asked := by
    rw [bindings_bindSlot, bindings_bindSlot, alike.prelude, alike.bindings asked]

theorem Environment.Alike.bindAll {env other : Environment} (alike : Alike env other)
    (pairs : List (String × Slot)) : Alike (env.bindAll pairs) (other.bindAll pairs) := by
  induction pairs generalizing env other with
  | nil => exact alike
  | cons pair rest ih => exact ih (alike.bindSlot pair.1 pair.2)

/-- Slots of two names may be bound in either order. -/
theorem Environment.bindSlot_comm (env : Environment) {first second : String}
    (apart : first ≠ second) (one two : Slot) :
    Alike (bindSlot second two (bindSlot first one env).env).env
      (bindSlot first one (bindSlot second two env).env).env where
  prelude := by simp only [bindSlot_env]
  depth := by simp only [bindSlot_env]
  bindings asked := by
    have samePrelude (name : String) (slot : Slot) :
        (bindSlot name slot env).env.prelude = env.prelude := by rw [bindSlot_env]
    simp only [bindings_bindSlot, samePrelude]
    grind

/-- One slot may be bound before or after slots of other names. -/
theorem Environment.bindAll_bindSlot_comm (env : Environment) (name : String) (slot : Slot)
    (pairs : List (String × Slot)) (apart : ∀ pair ∈ pairs, name ≠ pair.1) :
    Alike ((bindSlot name slot env).env.bindAll pairs)
      (bindSlot name slot (env.bindAll pairs)).env := by
  induction pairs generalizing env with
  | nil => exact .refl _
  | cons pair rest ih =>
    obtain ⟨apartFirst, apartRest⟩ := List.forall_mem_cons.mp apart
    exact ((env.bindSlot_comm apartFirst slot pair.2).bindAll rest).trans (ih _ apartRest)

/-- Two rows of slots without a common name may be bound in either order. -/
theorem Environment.bindAll_comm (env : Environment) (first second : List (String × Slot))
    (apart : ∀ one ∈ first, ∀ two ∈ second, one.1 ≠ two.1) :
    Alike (env.bindAll (first ++ second)) (env.bindAll (second ++ first)) := by
  induction first generalizing env with
  | nil =>
    rw [List.append_nil]
    exact .refl _
  | cons pair rest ih =>
    obtain ⟨apartFirst, apartRest⟩ := List.forall_mem_cons.mp apart
    have moved := ih (Environment.bindSlot pair.1 pair.2 env).env apartRest
    rw [bindAll_append _ second] at moved ⊢
    exact moved.trans ((env.bindAll_bindSlot_comm pair.1 pair.2 second apartFirst).bindAll rest)

namespace ValueSpec

variable (settings : Settings) {specs permuted : List ValueSpec}

/-- Rows of slots may be bound in any order of their specs. -/
theorem bindAll_perm (slotsOf : ValueSpec → List Slot) (order : specs.Perm permuted)
    (apart : specs.Pairwise Independent) (env : Environment) :
    let pairs (spec : ValueSpec) := spec.names.zip (slotsOf spec)
    Alike (env.bindAll (specs.flatMap pairs)) (env.bindAll (permuted.flatMap pairs)) := by
  intro pairs
  induction order generalizing env with
  | nil => exact .refl env
  | cons spec _ ih =>
    simp only [List.flatMap_cons, bindAll_append]
    exact ih (List.pairwise_cons.mp apart).2 _
  | swap first second rest =>
    have apartPair : Independent second first :=
      (List.pairwise_cons.mp apart).1 first List.mem_cons_self
    have swapped := env.bindAll_comm (pairs second) (pairs first) fun one inOne two inTwo same =>
      apartPair.names _ (List.of_mem_zip inOne).1 (same ▸ (List.of_mem_zip inTwo).1)
    simp only [List.flatMap_cons, ← List.append_assoc]
    rw [bindAll_append _ (_ ++ _), bindAll_append _ (_ ++ _)]
    exact swapped.bindAll _
  | trans one _ ihOne ihTwo =>
    exact (ihOne apart env).trans (ihTwo (one.pairwise apart Independent.symm) env)

/-- Independent specs may come in any order: each has the same slots, those it would have alone, and
the table afterwards binds the same names to the same values. -/
theorem evalSpecs_perm (apart : specs.Pairwise Independent) (order : specs.Perm permuted)
    (env : Environment) :
    let one := evalSpecs settings specs env
    let other := evalSpecs settings permuted env
    one.answer = specs.map (slots settings env) ∧
      other.answer = permuted.map (slots settings env) ∧
      (∀ name, one.env.get? name = other.env.get? name) ∧
      (∀ name, name ∈ one.env.bindings.names ↔ name ∈ other.env.bindings.names) ∧
      one.env.prelude = other.env.prelude ∧ one.env.depth = other.env.depth := by
  intro one other
  obtain ⟨answer, after⟩ := evalSpecs_of_independent settings apart env
  obtain ⟨answerOther, afterOther⟩ :=
    evalSpecs_of_independent settings (order.pairwise apart Independent.symm) env
  have alike : Alike one.env other.env := by
    rw [after, afterOther]
    exact bindAll_perm (slots settings env) order apart env
  exact ⟨answer, answerOther, alike.get?, alike.mem_names, alike.prelude, alike.depth⟩

/-- `a, b = 1, a + c`, `z = 1 / 0`, `t int` and `k = true, z` backwards. The failure unbinds `z` in
either order, and `k` does not mention it: it has one name and takes the first value. -/
theorem evalSpecs_perm_of_reversed :
    let untyped (names : List String) (values : List Expr) : ValueSpec :=
      { names, type := none, values }
    let int (text : String) : Expr := .literal (.int text)
    let sums := untyped ["a", "b"] [int "1", .binary (.plain .add) (.name "a") (.name "c")]
    let quotient := untyped ["z"] [.binary (.plain .div) (int "1") (int "0")]
    let zero : ValueSpec := { names := ["t"], type := some (.name "int"), values := [] }
    let truth := untyped ["k"] [.literal (.bool true), .name "z"]
    let specs := [sums, quotient, zero, truth]
    let env : Environment := { bindings := [("z", .int 5), ("c", .int 2)] }
    specs.Pairwise Independent ∧ specs.Perm specs.reverse ∧
      (evalSpecs {} specs.reverse env).answer =
        [[some (.bool true)], [some (.int 0)], [none], [some (.int 1), some (.int 3)]] ∧
      (evalSpecs {} specs env).env.get? "z" = (evalSpecs {} specs.reverse env).env.get? "z" ∧
      (evalSpecs {} specs env).env.get? "z" = none := by
  intro untyped int sums quotient zero truth specs env
  have apart : specs.Pairwise Independent := by decide
  have order : specs.Perm specs.reverse := (List.reverse_perm specs).symm
  obtain ⟨-, answer, same, -⟩ := evalSpecs_perm {} apart order env
  have alone : specs.reverse.map (slots {} env) =
      [[some (.bool true)], [some (.int 0)], [none], [some (.int 1), some (.int 3)]] := by
    decide +kernel
  have unbound : (evalSpecs {} specs env).env.get? "z" = none := by decide +kernel
  exact ⟨apart, order, answer.trans alone, same "z", unbound⟩

end ValueSpec

end GoDecl
