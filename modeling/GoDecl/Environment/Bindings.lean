import GoDecl.Value

/-! Names and their values, in the order in which the names came. -/
namespace GoDecl

abbrev Bindings := List (String × Value)

namespace Bindings

def get? (name : String) : Bindings → Option Value
  | [] => none
  | (other, value) :: rest => if other = name then some value else get? name rest

def contains (name : String) (b : Bindings) : Bool := (b.get? name).isSome

/-- A known name keeps its place and takes the new value; a new one goes to the end. -/
def insert (name : String) (value : Value) : Bindings → Bindings
  | [] => [(name, value)]
  | (other, old) :: rest =>
    if other = name then (name, value) :: rest else (other, old) :: insert name value rest

/-- The others keep their order. -/
def erase (name : String) (b : Bindings) : Bindings := b.filter (·.1 ≠ name)

def names (b : Bindings) : List String := b.map (·.1)

def ofList (pairs : List (String × Value)) : Bindings :=
  pairs.foldl (fun b (name, value) => insert name value b) []

@[simp] theorem get?_insert (b : Bindings) (name other : String) (value : Value) :
    (b.insert name value).get? other = if name = other then some value else b.get? other := by
  induction b with
  | nil => simp [insert, get?]
  | cons pair rest ih => simp only [insert]; grind [get?]

@[simp] theorem get?_erase (b : Bindings) (name other : String) :
    (b.erase name).get? other = if name = other then none else b.get? other := by
  induction b with
  | nil => simp [erase, get?]
  | cons pair rest ih =>
    simp only [erase, List.filter_cons] at ih ⊢
    grind [get?]

theorem mem_names_iff (b : Bindings) (name : String) : name ∈ b.names ↔ (b.get? name).isSome := by
  induction b with
  | nil => simp [names, get?]
  | cons pair rest ih =>
    simp only [names, List.map_cons, List.mem_cons, get?] at ih ⊢
    grind

@[simp] theorem names_insert (b : Bindings) (name : String) (value : Value) :
    (b.insert name value).names = if name ∈ b.names then b.names else b.names ++ [name] := by
  induction b with
  | nil => simp [insert, names]
  | cons pair rest ih =>
    simp only [insert, names, List.map_cons, List.mem_cons] at ih ⊢
    grind

@[simp] theorem names_erase (b : Bindings) (name : String) :
    (b.erase name).names = b.names.filter (· ≠ name) := by
  simp only [erase, names, List.filter_map]
  rfl

theorem erase_of_get?_none (b : Bindings) (name : String) (unbound : b.get? name = none) :
    b.erase name = b := by
  apply List.filter_eq_self.mpr
  intro pair member
  have known : pair.1 ∈ b.names := List.mem_map_of_mem member
  rw [mem_names_iff] at known
  grind

end Bindings

end GoDecl
