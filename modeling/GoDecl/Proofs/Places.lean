import GoDecl.Decl.Basic

/-! Tokens apart from their places. What is put together rather than read has no places; the same
tokens in a text have some. -/
namespace GoDecl

namespace Token

mutual
/-- The token as it would be put together. -/
def unplaced : Token → Token
  | .word text _ => .word text {}
  | .punct c joint _ => .punct c joint {}
  | .literal l _ => .literal l {}
  | .group d inner _ _ => .wrap d (unplacedAll inner)
def unplacedAll : List Token → List Token
  | [] => []
  | t :: rest => t.unplaced :: unplacedAll rest
end

theorem unplacedAll_eq_map (tokens : List Token) : unplacedAll tokens = tokens.map unplaced := by
  induction tokens with
  | nil => rfl
  | cons t rest ih => rw [unplacedAll, ih, List.map_cons]

theorem unplacedAll_eq_nil {tokens : List Token} : unplacedAll tokens = [] ↔ tokens = [] := by
  rw [unplacedAll_eq_map, List.map_eq_nil_iff]

theorem unplacedAll_eq_cons {tokens more : List Token} {t : Token} :
    unplacedAll tokens = t :: more ↔
      ∃ u rest, tokens = u :: rest ∧ u.unplaced = t ∧ unplacedAll rest = more := by
  simp only [unplacedAll_eq_map, List.map_eq_cons_iff]

theorem unplacedAll_eq_append {tokens front back : List Token} :
    unplacedAll tokens = front ++ back ↔
      ∃ x y, tokens = x ++ y ∧ unplacedAll x = front ∧ unplacedAll y = back := by
  simp only [unplacedAll_eq_map, List.map_eq_append_iff]

/-- A token of which only the place is open. -/
theorem unplacedAll_eq_cons_of {t : Token} {make : Position → Token}
    (shape : ∀ u : Token, u.unplaced = t ↔ ∃ p, u = make p) {tokens more : List Token} :
    unplacedAll tokens = t :: more ↔
      ∃ p rest, tokens = make p :: rest ∧ unplacedAll rest = more := by
  simp only [unplacedAll_eq_cons, shape]
  constructor
  · rintro ⟨_, rest, rfl, ⟨p, rfl⟩, others⟩
    exact ⟨p, rest, rfl, others⟩
  · rintro ⟨p, rest, rfl, others⟩
    exact ⟨_, rest, rfl, ⟨p, rfl⟩, others⟩

section Cons

variable {tokens more : List Token}

theorem unplacedAll_eq_word_cons {text : String} :
    unplacedAll tokens = .word text {} :: more ↔
      ∃ p rest, tokens = .word text p :: rest ∧ unplacedAll rest = more :=
  unplacedAll_eq_cons_of fun u => by cases u <;> simp [unplaced, wrap]

theorem unplacedAll_eq_punct_cons {c : Char} {joint : Bool} :
    unplacedAll tokens = .punct c joint {} :: more ↔
      ∃ p rest, tokens = .punct c joint p :: rest ∧ unplacedAll rest = more :=
  unplacedAll_eq_cons_of fun u => by cases u <;> simp [unplaced, wrap]

theorem unplacedAll_eq_literal_cons {l : Literal} :
    unplacedAll tokens = .literal l {} :: more ↔
      ∃ p rest, tokens = .literal l p :: rest ∧ unplacedAll rest = more :=
  unplacedAll_eq_cons_of fun u => by cases u <;> simp [unplaced, wrap]

theorem unplacedAll_eq_wrap_cons {d : Delimiter} {inner : List Token} :
    unplacedAll tokens = wrap d inner :: more ↔
      ∃ own p q rest, tokens = .group d own p q :: rest ∧ unplacedAll own = inner ∧
        unplacedAll rest = more := by
  rw [unplacedAll_eq_cons]
  constructor
  · rintro ⟨u, rest, rfl, same, others⟩
    cases u with
    | group e own p q =>
      simp only [unplaced, wrap, group.injEq] at same
      obtain ⟨rfl, inner, -⟩ := same
      exact ⟨own, p, q, rest, rfl, inner, others⟩
    | word | punct | literal => simp [unplaced, wrap] at same
  · rintro ⟨own, p, q, rest, rfl, rfl, others⟩
    exact ⟨_, rest, rfl, rfl, others⟩

end Cons

@[simp] theorem sizeOfAll_append (front back : List Token) :
    sizeOfAll (front ++ back) = sizeOfAll front + sizeOfAll back := by
  induction front with
  | nil => simp [sizeOfAll]
  | cons t rest ih => simp [sizeOfAll, ih, Nat.add_assoc]

theorem size_pos (t : Token) : 0 < t.size := by
  cases t <;> simp [size]

theorem sizeOfAll_pos {tokens : List Token} (nonempty : tokens ≠ []) : 0 < sizeOfAll tokens := by
  cases tokens with
  | nil => contradiction
  | cons t rest =>
    have := t.size_pos
    simp only [sizeOfAll]
    omega

end Token

end GoDecl
