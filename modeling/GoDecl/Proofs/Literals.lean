import GoDecl.Proofs.Declarations
import GoDecl.Proofs.History
import GoDecl.Proofs.Spelling

/-! Declarations of literals, from the source to the slots. A literal that takes its normal form and
is cut off by itself does so in a row of them, and each name gets the value of its own literal. -/
namespace GoDecl

open Text Source Token Grammar

/-- A declaration of names without a type, as source. -/
def varSource (names values : List String) : String :=
  "var " ++ ", ".intercalate names ++ " = " ++ ", ".intercalate values

theorem toList_varSource (names values : List String) :
    (varSource names values).toList =
      varText (names.map String.toList) (values.map String.toList) := by
  simp [varSource, varText, enumeration, String.toList_intercalate]

variable {α : Type} {written : α → String} {turned : α → List Char} {literal : α → Literal}
  {value : α → Value} {names : List String} {items : List α}

theorem parse_literals (named : names ≠ [])
    (plain : ∀ name ∈ names.map String.toList, isPlainWord name = true) (nonempty : items ≠ [])
    (turns : ∀ a ∈ items, Turns (written a).toList (turned a))
    (cuts : ∀ a ∈ items, Cuts (turned a) (.literal (literal a)))
    (noBool : ∀ a x, literal a ≠ .bool x) :
    Declaration.parse (varSource names (items.map written)) =
      .ok [.value .var [untypedSpec id literal names items]] := by
  have normalised : normal (varSource names (items.map written)).toList =
      varText (names.map String.toList) (items.map turned) := by
    rw [toList_varSource, List.map_map]
    exact normal_varText _ turned (by simpa using named) nonempty plain turns
  obtain ⟨start, joint, p, front, back, read, words, literals⟩ :=
    lex_varText (by simpa using named) plain nonempty cuts
  have all : Grammar.readAll (GoDecl.items topDeclaration) _ = _ :=
    readAll_literals words literals joint p noBool start
  rw [Declaration.parse, readText, normalised, read]
  simp only [all]
  simp [untypedSpec]

/-- Literals have their values wherever there is room for one level, so each slot is its own
literal's, whatever the slots before it were bound to. -/
theorem slots_literals (valued : ∀ a env, (literal a).eval env = .ok (value a)) (max : Nat)
    (zero : Option Value) (names : List String) (items : List α)
    (paired : names.length = items.length) (env : Environment) (room : env.depth < max) :
    Entry.slots (entriesOf max zero names (items.map fun a => .literal (literal a))) env =
      items.map fun a => some (value a) := by
  induction items generalizing names env with
  | nil =>
    rw [List.length_nil, List.length_eq_zero_iff] at paired
    rw [paired]
    rfl
  | cons a items ih =>
    obtain ⟨name, names, rfl⟩ := List.exists_cons_of_length_eq_add_one paired
    have answer := Expr.eval_leaf max (.literal (literal a)) env rfl
    rw [if_pos room, Expr.value, valued] at answer
    have slot : Entry.slot ⟨name, initialValue max zero name (some (.literal (literal a)))⟩ env =
        some (value a) := by
      rw [Entry.slot, initialValue, answer]
      rfl
    -- Binding the slot keeps the depth, so there is room for the next literal too.
    have later := ih names (by simpa using paired)
      (Environment.bindSlot name (some (value a)) env).env (by rwa [Environment.bindSlot_env])
    rw [entriesOf_cons, List.map_cons, List.head?_cons, List.tail_cons, Entry.slots, slot, later,
      List.map_cons]

/-- A declaration of as many literals as names gives each name its value. -/
theorem evaluate_literals (named : names ≠ [])
    (plain : ∀ name ∈ names.map String.toList, isPlainWord name = true) (nonempty : items ≠ [])
    (turns : ∀ a ∈ items, Turns (written a).toList (turned a))
    (cuts : ∀ a ∈ items, Cuts (turned a) (.literal (literal a)))
    (noBool : ∀ a x, literal a ≠ .bool x) (valued : ∀ a env, (literal a).eval env = .ok (value a))
    (paired : names.length = items.length) (settings : Settings) (env : Environment)
    (room : env.depth < settings.maxDepth) :
    (evaluate settings (varSource names (items.map written)) env).answer =
      .ok (items.map fun a => some (value a)) := by
  have parsed := parse_literals named plain nonempty turns cuts noBool
  rw [(evaluate_of_parse_ok settings _ env _ parsed).1,
    (evalDeclarations_filledBy settings _).answer]
  have entries : [Declaration.value .var [untypedSpec id literal names items]].flatMap
      (·.entries settings) =
      entriesOf settings.maxDepth none names (items.map fun a => .literal (literal a)) := by
    simp [Declaration.entries, ValueSpec.entries, ValueSpec.zero?, untypedSpec]
  rw [entries]
  exact congrArg Except.ok (slots_literals valued _ none names items paired env room)

end GoDecl
