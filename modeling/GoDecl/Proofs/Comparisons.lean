import GoDecl.Proofs.ByteOrder
import GoDecl.Proofs.Magnitudes

/-! Comparison operators against the order of values. Both follow the order that the values of a
kind have by themselves: that of the integers, of the numbers that floats stand for, of code points,
and of the bytes of texts. A NaN is the only value without a place in its order. -/
namespace GoDecl

namespace Value

/-- Values that can be compared: two of one kind, which is not that of the booleans. -/
inductive Comparable : Value → Value → Prop where
  | int (a b : Int64) : Comparable (.int a) (.int b)
  | float (x y : Single) : Comparable (.float x) (.float y)
  | string (s t : String) : Comparable (.string s) (.string t)
  | rune (a b : Char) : Comparable (.rune a) (.rune b)

def isNaN : Value → Bool
  | .float x => x.isNaN
  | _ => false

/-- The order of a kind. -/
def Below : Value → Value → Prop
  | .int a, .int b => a.toInt < b.toInt
  | .float x, .float y => x.isNaN = false ∧ y.isNaN = false ∧ x.toRat < y.toRat
  | .string s, .string t => bytes s < bytes t
  | .rune a, .rune b => a.toNat < b.toNat
  | _, _ => False

/-- The same place in the order of a kind. -/
def Level : Value → Value → Prop
  | .int a, .int b => a = b
  | .float x, .float y => x.isNaN = false ∧ y.isNaN = false ∧ x.toRat = y.toRat
  | .string s, .string t => s = t
  | .rune a, .rune b => a = b
  | _, _ => False

end Value

open Value

/-- An ordering says which of three cases is the one that holds, and none that no case holds. -/
inductive Tells (less same greater : Prop) : Option Ordering → Prop where
  | lt (yes : less) (no : ¬ same) (no' : ¬ greater) : Tells less same greater (some .lt)
  | eq (no : ¬ less) (yes : same) (no' : ¬ greater) : Tells less same greater (some .eq)
  | gt (no : ¬ less) (no' : ¬ same) (yes : greater) : Tells less same greater (some .gt)
  | none (no : ¬ less) (no' : ¬ same) (no'' : ¬ greater) : Tells less same greater none

theorem tells_compare {α : Type} [LinearOrder α] (x y : α) :
    Tells (x < y) (x = y) (y < x) (some (compare x y)) := by
  rcases lt_trichotomy x y with less | same | greater
  · rw [compare_lt_iff_lt.mpr less]
    exact .lt less less.ne less.asymm
  · rw [compare_eq_iff_eq.mpr same]
    exact .eq (same ▸ lt_irrefl x) same (same ▸ lt_irrefl x)
  · rw [compare_gt_iff_gt.mpr greater]
    exact .gt greater.asymm greater.ne' greater

theorem Tells.congr {less same greater less' same' greater' : Prop} {o : Option Ordering}
    (tells : Tells less same greater o) (first : less ↔ less') (second : same ↔ same')
    (third : greater ↔ greater') : Tells less' same' greater' o :=
  propext first ▸ propext second ▸ propext third ▸ tells

/-- The order of values is the order of their kind. -/
theorem Value.Comparable.tells {a b : Value} (comparable : Comparable a b) :
    Tells (a.Below b) (a.Level b) (b.Below a) (a.compare? b) := by
  cases comparable with
  | int a b =>
    exact (tells_compare a.toInt b.toInt).congr .rfl Int64.toInt_inj .rfl
  | float x y =>
    by_cases nan : x.isNaN = true ∨ y.isNaN = true
    · have noNumber : ¬ (x.isNaN = false ∧ y.isNaN = false) := by
        rcases nan with nan | nan <;> simp [nan]
      have none : (Value.float x).compare? (.float y) = none := Single.compare?_nan nan
      rw [none]
      exact .none (fun h => noNumber ⟨h.1, h.2.1⟩) (fun h => noNumber ⟨h.1, h.2.1⟩)
        (fun h => noNumber ⟨h.2.1, h.1⟩)
    · obtain ⟨number, number'⟩ : x.isNaN = false ∧ y.isNaN = false := by simpa using nan
      have ordered : (Value.float x).compare? (.float y) = some (compare x.toRat y.toRat) :=
        Single.compare?_eq number number'
      rw [ordered]
      exact (tells_compare x.toRat y.toRat).congr (by simp [Below, number, number'])
        (by simp [Level, number, number']) (by simp [Below, number, number'])
  | string s t =>
    have ordered : (Value.string s).compare? (.string t) = some (compare s t) :=
      congrArg some (LinearOrder.compare_eq_compareOfLessAndEq s t).symm
    rw [ordered]
    exact (tells_compare s t).congr (bytes_lt_iff s t).symm .rfl (bytes_lt_iff t s).symm
  | rune a b =>
    exact (tells_compare a.toNat b.toNat).congr .rfl Char.toNat_inj .rfl

namespace Tells

variable {less same greater : Prop} {o : Option Ordering} (tells : Tells less same greater o)

include tells

theorem lt_iff : o = some .lt ↔ less := by cases tells <;> simp [*]

theorem eq_iff : o = some .eq ↔ same := by cases tells <;> simp [*]

theorem gt_iff : o = some .gt ↔ greater := by cases tells <;> simp [*]

end Tells

theorem Value.Below.trans {a b c : Value} (first : a.Below b) (second : b.Below c) :
    a.Below c := by
  cases a <;> cases b <;> try contradiction
  all_goals cases c <;> try contradiction
  · exact Int.lt_trans first second
  · exact ⟨first.1, second.2.1, first.2.2.trans second.2.2⟩
  · exact List.lt_trans first second
  · exact Nat.lt_trans first second

theorem Value.Comparable.symm {a b : Value} (comparable : Comparable a b) : Comparable b a := by
  cases comparable <;> constructor

theorem Value.Comparable.equals_iff {a b : Value} (comparable : Comparable a b) :
    a.equals b = true ↔ a.Level b := by
  cases comparable with
  | float x y => exact decide_eq_true_iff.trans (Comparable.float x y).tells.eq_iff
  | int | string | rune => exact decide_eq_true_iff

theorem Value.Level.symm {a b : Value} (level : a.Level b) : b.Level a := by
  cases a <;> cases b <;> try contradiction
  · exact Eq.symm level
  · exact ⟨level.2.1, level.1, level.2.2.symm⟩
  · exact Eq.symm level
  · exact Eq.symm level

/-- Without a NaN there is always an order. -/
theorem Value.Comparable.isSome_compare? {a b : Value} (comparable : Comparable a b)
    (number : a.isNaN = false) (number' : b.isNaN = false) : (a.compare? b).isSome := by
  cases comparable with
  | float x y => exact Option.isSome_of_eq_some (Single.compare?_eq number number')
  | int | string | rune => rfl

theorem Value.Comparable.compare?_nan {a b : Value} (comparable : Comparable a b)
    (nan : a.isNaN = true ∨ b.isNaN = true) : a.compare? b = none := by
  cases comparable with
  | float x y => exact Single.compare?_nan nan
  | int | string | rune => simp [isNaN] at nan

namespace Operator

/-- The operators with a truth value as their result. -/
def comparisons : List Operator := [.lt, .gt, .le, .ge]

def Holds (op : Operator) (a b : Value) : Prop := op.apply a b = .ok (.bool true)

/-- A comparison is answered from the order of its operands. -/
theorem apply_comparison {op : Operator} (member : op ∈ comparisons) {a b : Value}
    (comparable : Comparable a b) : op.apply a b = .ok (op.holds (a.compare? b)) := by
  simp only [comparisons, List.mem_cons, List.not_mem_nil, or_false] at member
  rcases member with rfl | rfl | rfl | rfl <;> cases comparable <;> rfl

/-- What a comparison asks, of the three cases of an order. -/
def Asks (op : Operator) (less same greater : Prop) : Prop :=
  match op with
  | .lt => less
  | .gt => greater
  | .le => less ∨ same
  | .ge => greater ∨ same
  | _ => False

theorem accepts_iff {op : Operator} (member : op ∈ comparisons) {less same greater : Prop}
    {o : Option Ordering} (tells : Tells less same greater o) :
    op.holds o = .bool true ↔ op.Asks less same greater := by
  simp only [comparisons, List.mem_cons, List.not_mem_nil, or_false] at member
  rcases member with rfl | rfl | rfl | rfl <;> cases tells <;> simp [holds, accepts, Asks, *]

theorem holds_iff (op : Operator) (member : op ∈ comparisons) {a b : Value}
    (comparable : Comparable a b) :
    op.Holds a b ↔ op.Asks (a.Below b) (a.Level b) (b.Below a) := by
  rw [← accepts_iff member comparable.tells, Holds, apply_comparison member comparable]
  simp

end Operator

/-- One of three statements, and no other of them. -/
def OneOf (p q r : Prop) : Prop := p ∧ ¬ q ∧ ¬ r ∨ ¬ p ∧ q ∧ ¬ r ∨ ¬ p ∧ ¬ q ∧ r

/-- What the comparison operators, the equality and the order of values have to do with one
another. -/
structure ComparisonLaws (a b : Value) : Prop where
  /-- A comparison has a truth value. -/
  answers : ∀ op ∈ Operator.comparisons, ∃ truth, op.apply a b = .ok (.bool truth)
  lt_iff : Operator.lt.Holds a b ↔ a.compare? b = some .lt
  gt_iff : Operator.gt.Holds a b ↔ a.compare? b = some .gt
  le_iff : Operator.le.Holds a b ↔ a.compare? b = some .lt ∨ a.compare? b = some .eq
  ge_iff : Operator.ge.Holds a b ↔ a.compare? b = some .gt ∨ a.compare? b = some .eq
  equals_iff : a.equals b = true ↔ a.compare? b = some .eq
  lt_comm : Operator.lt.Holds a b ↔ Operator.gt.Holds b a
  le_comm : Operator.le.Holds a b ↔ Operator.ge.Holds b a
  trichotomy : a.isNaN = false → b.isNaN = false →
    OneOf (Operator.lt.Holds a b) (a.equals b = true) (Operator.gt.Holds a b)
  trans : ∀ c, b.Comparable c → Operator.lt.Holds a b → Operator.lt.Holds b c →
    Operator.lt.Holds a c
  nan : a.isNaN = true ∨ b.isNaN = true →
    ∀ op ∈ Operator.comparisons, op.apply a b = .ok (.bool false)
  /-- The order is that of the kind, and equal values are level in it. -/
  lt_iff_below : Operator.lt.Holds a b ↔ a.Below b
  equals_iff_level : a.equals b = true ↔ a.Level b

theorem Value.Comparable.trans {a b c : Value} (first : Comparable a b) (second : Comparable b c) :
    Comparable a c := by
  cases first <;> cases second <;> constructor

theorem Value.Comparable.trichotomy {a b : Value} (comparable : Comparable a b)
    (number : a.isNaN = false) (number' : b.isNaN = false) :
    OneOf (a.Below b) (a.Level b) (b.Below a) := by
  have ordered := comparable.isSome_compare? number number'
  have tells := comparable.tells
  generalize a.compare? b = o at ordered tells
  cases tells with
  | lt yes no no' => exact .inl ⟨yes, no, no'⟩
  | eq no yes no' => exact .inr (.inl ⟨no, yes, no'⟩)
  | gt no no' yes => exact .inr (.inr ⟨no, no', yes⟩)
  | none => contradiction

/-- The operators, the equality and the order of values agree on any two values of a kind, the order
is total without NaNs, and texts have the same order by bytes and by code points. -/
theorem comparisons_follow_order :
    (∀ a b : Value, a.Comparable b → ComparisonLaws a b) ∧
      ∀ s t : String, bytes s < bytes t ↔ codePoints s < codePoints t := by
  refine ⟨fun a b comparable => ?_,
    fun s t => (bytes_lt_iff s t).trans (codePoints_lt_iff s t).symm⟩
  have tells := comparable.tells
  have lt := Operator.holds_iff .lt (by decide) comparable
  have gt := Operator.holds_iff .gt (by decide) comparable
  have le := Operator.holds_iff .le (by decide) comparable
  have ge := Operator.holds_iff .ge (by decide) comparable
  have back := Operator.holds_iff .gt (by decide) comparable.symm
  have back' := Operator.holds_iff .ge (by decide) comparable.symm
  have level : a.Level b ↔ b.Level a := ⟨.symm, .symm⟩
  exact
    { answers op member := ⟨_, Operator.apply_comparison member comparable⟩
      lt_iff := lt.trans tells.lt_iff.symm
      gt_iff := gt.trans tells.gt_iff.symm
      le_iff := by rw [le, tells.lt_iff, tells.eq_iff]; rfl
      ge_iff := by rw [ge, tells.gt_iff, tells.eq_iff]; rfl
      equals_iff := comparable.equals_iff.trans tells.eq_iff.symm
      lt_comm := lt.trans back.symm
      le_comm := by rw [le, back']; simp only [Operator.Asks, level]
      trichotomy number number' := by
        rw [lt, gt, comparable.equals_iff]
        exact comparable.trichotomy number number'
      trans c other first second := by
        rw [lt] at first
        rw [Operator.holds_iff .lt (by decide) other] at second
        rw [Operator.holds_iff .lt (by decide) (comparable.trans other)]
        exact Below.trans first second
      nan nan op member := by
        rw [Operator.apply_comparison member comparable, comparable.compare?_nan nan]
        rfl
      lt_iff_below := lt
      equals_iff_level := comparable.equals_iff }

/-- The two zeros are level, a NaN is not even level with itself, and texts that share a first
character are ordered by the next one, here by the last of three bytes and the first of four. -/
theorem comparisons_follow_order_of_zeros :
    let zero (negative : Bool) : Value := .float (.pack negative 0)
    let nan : Value := .float .nan
    let near : Value := .string "z\uffff"
    let far : Value := .string "z😀"
    let last : Value := .string "~"
    ((zero false).Comparable (zero true) ∧ (zero false).equals (zero true) = true ∧
      OneOf (Operator.lt.Holds (zero false) (zero true)) ((zero false).equals (zero true) = true)
        (Operator.gt.Holds (zero false) (zero true))) ∧
    (nan.Comparable nan ∧ nan.isNaN = true ∧ Operator.le.apply nan nan = .ok (.bool false)) ∧
    near.Comparable far ∧ far.Comparable last ∧ Operator.lt.Holds near last := by
  intro zero nan near far last
  obtain ⟨laws, -⟩ := comparisons_follow_order
  have zeros := laws (zero false) (zero true) (.float _ _)
  have nans := laws nan nan (.float _ _)
  have texts := laws near far (.string _ _)
  have texts' := laws far last (.string _ _)
  have first := texts.lt_iff.mpr (by decide)
  have second := texts'.lt_iff.mpr (by decide)
  exact ⟨⟨.float _ _, zeros.equals_iff.mpr (by decide), zeros.trichotomy rfl rfl⟩,
    ⟨.float _ _, rfl, nans.nan (.inl rfl) _ (by decide)⟩,
    .string _ _, .string _ _, texts.trans last (.string _ _) first second⟩

end GoDecl
