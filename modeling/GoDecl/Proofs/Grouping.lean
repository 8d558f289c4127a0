import GoDecl.Grammar.Layout
import GoDecl.Proofs.Places

/-! Trees that are grouped by precedence. Such a tree needs no further parentheses: it is an operand
and a row of operators, each with its right operand, that bind ever looser. -/
namespace GoDecl

open Grammar

/-- How tightly an operator binds: products before sums, and sums before comparisons. -/
def Operator.tightness : Operator → Nat
  | .lt | .gt | .le | .ge => 3
  | .add | .sub => 4
  | .mul | .div | .rem => 5

/-- Whether `next` may follow where `op` has its operands: operators that bind equally are grouped
from the left, and comparisons not at all. -/
def Operator.Before (op next : Operator) : Prop :=
  next.tightness < op.tightness ∨ next.tightness = op.tightness ∧ op.tightness ≠ 3

namespace Expr

/-- The tightness of the outermost operator; signs bind tighter, and nothing divides the rest. -/
def tightness : Expr → Nat
  | .binary (.plain op) _ _ => op.tightness
  | .binary .. => 0
  | .unary .. => 6
  | _ => 7

/-- Trees that are grouped by the precedence of their operators alone: an operand that binds too
loosely stands in parentheses. -/
inductive Grouped : Expr → Prop where
  | literal (l : Literal) (written : ∀ b, l ≠ .bool b) : Grouped (.literal l)
  | name (text : String) (free : text ∉ reserved) : Grouped (.name text)
  | paren {inner : Expr} (within : Grouped inner) : Grouped (.paren inner)
  | unary {op : UnaryOp} {operand : Expr} (tight : 6 ≤ operand.tightness)
      (behind : Grouped operand) : Grouped (.unary op operand)
  | binary {op : Operator} {left right : Expr}
      (onLeft : op.tightness < left.tightness ∨ op.tightness = left.tightness ∧ op.tightness ≠ 3)
      (onRight : op.tightness < right.tightness) (before : Grouped left) (behind : Grouped right) :
      Grouped (.binary (.plain op) left right)

/-- Whether a tree is grouped by precedence alone. -/
def isGrouped : Expr → Bool
  | .literal (.bool _) => false
  | .literal _ => true
  | .name text => text ∉ reserved
  | .paren inner => inner.isGrouped
  | .unary _ operand => 6 ≤ operand.tightness && operand.isGrouped
  | .binary (.plain op) left right =>
    (op.tightness < left.tightness || op.tightness = left.tightness && op.tightness ≠ 3) &&
      op.tightness < right.tightness && left.isGrouped && right.isGrouped
  | _ => false

theorem grouped_iff {e : Expr} : e.Grouped ↔ e.isGrouped = true := by
  constructor
  · intro grouped
    induction grouped with
    | literal l written =>
      cases l with
      | bool b => exact absurd rfl (written b)
      | _ => rfl
    | name text free => simpa [isGrouped] using free
    | paren within ih => exact ih
    | unary tight behind ih => simp [isGrouped, tight, ih]
    | binary onLeft onRight before behind ih ih' => simp [isGrouped, onLeft, onRight, ih, ih']
  · fun_induction isGrouped e with
    | case1 | case7 => nofun
    | case2 l written => exact fun _ => .literal l written
    | case3 text => exact fun free => .name text (by simpa using free)
    | case4 inner ih => exact fun within => .paren (ih within)
    | case5 op operand ih =>
      simp only [Bool.and_eq_true, decide_eq_true_eq]
      exact fun ⟨tight, behind⟩ => .unary tight (ih behind)
    | case6 op left right ih ih' =>
      simp only [Bool.and_eq_true, Bool.or_eq_true, decide_eq_true_eq]
      exact fun ⟨⟨⟨onLeft, onRight⟩, before⟩, behind⟩ =>
        .binary onLeft onRight (ih before) (ih' behind)

instance : DecidablePred Grouped := fun _ => decidable_of_iff _ grouped_iff.symm

/-- The first operand, in front of all operators. -/
def first : Expr → Expr
  | .binary (.plain _) left _ => left.first
  | e => e

/-- The operators behind the first operand, each with its right operand. -/
def row : Expr → List (Operator × Expr)
  | .binary (.plain op) left right => left.row ++ [(op, right)]
  | _ => []

/-- The tree that is read. -/
def toTree : Expr → Tree
  | .literal l => .literal l
  | .name text => .name text
  | .qualified segments tokens => .qualified segments tokens
  | .unary op operand => .unary op operand.toTree
  | .binary op left right => .binary op left.toTree right.toTree
  | .paren inner => .paren inner.toTree
  | .group inner => inner.toTree
  | .other shape tokens => .other shape tokens

end Expr

/-- Operators, each with its right operand. -/
abbrev Row := List (Operator × Expr)

namespace Row

def tokens (row : Row) : List Token :=
  row.flatMap fun (op, right) => Token.operator op.symbol ++ right.tokens

/-- The tree that a row makes of its first operand. -/
def grow (left : Tree) (row : Row) : Tree :=
  row.foldl (fun left (op, right) => .binary (.plain op) left right.toTree) left

end Row

namespace Expr.Grouped

theorem tokens_eq {e : Expr} (grouped : e.Grouped) :
    e.tokens = e.first.tokens ++ Row.tokens e.row := by
  induction grouped with
  | binary onLeft onRight before behind ih =>
    simp [Expr.tokens, first, row, Row.tokens, ih, BinaryOp.symbol]
  | literal | name | paren | unary => simp [first, row, Row.tokens]

theorem toTree_eq {e : Expr} (grouped : e.Grouped) :
    e.toTree = Row.grow e.first.toTree e.row := by
  induction grouped with
  | binary onLeft onRight before behind ih => simp [toTree, first, row, Row.grow, ih]
  | literal | name | paren | unary => rfl

theorem toExpr_toTree {e : Expr} (grouped : e.Grouped) : e.toTree.toExpr = e := by
  induction grouped with
  | binary _ _ _ _ ih ih' => simp [toTree, Tree.toExpr, ih, ih']
  | paren _ ih => simp [toTree, Tree.toExpr, ih]
  | unary _ _ ih => simp [toTree, Tree.toExpr, ih]
  | literal | name => rfl

/-- The operators of a row bind ever looser, down to the outermost one. -/
theorem row_descends {e : Expr} (grouped : e.Grouped) :
    (e.row.Pairwise fun a b => a.1.Before b.1) ∧ ∀ x ∈ e.row, e.tightness ≤ x.1.tightness := by
  induction grouped with
  | @binary op left right onLeft onRight before behind ih =>
    obtain ⟨descends, least⟩ := ih
    constructor
    · simp only [row, List.pairwise_append, List.pairwise_singleton, List.mem_singleton, true_and]
      refine ⟨descends, ?_⟩
      rintro a member b rfl
      have := least a member
      simp only [Operator.Before]
      omega
    · intro x member
      simp only [row, List.mem_append, List.mem_singleton] at member
      simp only [Expr.tightness]
      rcases member with inLeft | rfl
      · have := least x inLeft
        omega
      · exact Nat.le_refl _
  | literal | name | paren | unary => simp [row]

end Expr.Grouped

namespace Row

theorem grow_append (left : Tree) (near far : Row) :
    grow left (near ++ far) = grow (grow left near) far := List.foldl_append

/-- A row up to the first operator that is looser than a given one, and the rest of it. -/
theorem exists_split (op : Operator) (row : Row) : ∃ near far, row = near ++ far ∧
    (∀ x ∈ near, op.tightness ≤ x.1.tightness) ∧
    ∀ x, far.head? = some x → x.1.tightness < op.tightness := by
  refine ⟨row.takeWhile (op.tightness ≤ ·.1.tightness),
    row.dropWhile (op.tightness ≤ ·.1.tightness), List.takeWhile_append_dropWhile.symm, ?_, ?_⟩
  · intro x member
    simpa using List.all_eq_true.mp List.all_takeWhile x member
  · intro x stop
    have looser := List.head?_dropWhile_not (op.tightness ≤ ·.1.tightness) row
    simpa [stop] using looser

theorem isRange_grow {left : Tree} (noRange : left.isRange = false) (row : Row) :
    (grow left row).isRange = false := by
  induction row generalizing left with
  | nil => exact noRange
  | cons x row ih => exact ih rfl

end Row

/-- The marks of an operator, at any place. -/
def Operator.SpelledBy (op : Operator) (marks : List Token) : Prop :=
  Token.unplacedAll marks = Token.operator op.symbol

/-- The tokens of an expression, at any places. -/
def Expr.SpelledBy (e : Expr) (tokens : List Token) : Prop := Token.unplacedAll tokens = e.tokens

namespace Row

/-- The tokens of a row, at any places. -/
def SpelledBy (row : Row) (tokens : List Token) : Prop := Token.unplacedAll tokens = row.tokens

theorem spelledBy_nil {tokens : List Token} : SpelledBy [] tokens ↔ tokens = [] :=
  Token.unplacedAll_eq_nil

theorem spelledBy_cons {op : Operator} {right : Expr} {row : Row} {tokens : List Token} :
    SpelledBy ((op, right) :: row) tokens ↔ ∃ marks back more, tokens = marks ++ (back ++ more) ∧
      op.SpelledBy marks ∧ right.SpelledBy back ∧ SpelledBy row more := by
  simp only [SpelledBy, Row.tokens, List.flatMap_cons, List.append_assoc,
    Token.unplacedAll_eq_append, Operator.SpelledBy, Expr.SpelledBy]
  constructor
  · rintro ⟨marks, _, rfl, spelled, back, more, rfl, behind, others⟩
    exact ⟨marks, back, more, rfl, spelled, behind, others⟩
  · rintro ⟨marks, back, more, rfl, spelled, behind, others⟩
    exact ⟨marks, _, rfl, spelled, back, more, rfl, behind, others⟩

theorem spelledBy_append {near far : Row} {tokens : List Token} :
    SpelledBy (near ++ far) tokens ↔ ∃ front back, tokens = front ++ back ∧
      SpelledBy near front ∧ SpelledBy far back := by
  simp only [SpelledBy, Row.tokens, List.flatMap_append, Token.unplacedAll_eq_append]

end Row

namespace Expr

namespace SpelledBy

variable {tokens : List Token}

theorem literal {l : Literal} (written : ∀ b, l ≠ .bool b) :
    SpelledBy (.literal l) tokens ↔ ∃ p, tokens = [.literal l p] := by
  have one : SpelledBy (.literal l) tokens ↔ Token.unplacedAll tokens = [.literal l {}] := by
    cases l with
    | bool b => exact absurd rfl (written b)
    | int | float | string | rune | byteString | zeroEnded | byte | verbatim => exact .rfl
  rw [one, Token.unplacedAll_eq_literal_cons]
  simp only [Token.unplacedAll_eq_nil, exists_eq_right]

theorem name {text : String} (spelled : SpelledBy (.name text) tokens) :
    ∃ p, tokens = [.word text p] := by
  obtain ⟨p, _, rfl, none⟩ := Token.unplacedAll_eq_word_cons.mp spelled
  exact ⟨p, by rw [Token.unplacedAll_eq_nil.mp none]⟩

theorem paren {inner : Expr} (spelled : SpelledBy (.paren inner) tokens) :
    ∃ own p q, tokens = [.group .paren own p q] ∧ inner.SpelledBy own := by
  obtain ⟨own, p, q, _, rfl, within, none⟩ := Token.unplacedAll_eq_wrap_cons.mp spelled
  exact ⟨own, p, q, by rw [Token.unplacedAll_eq_nil.mp none], within⟩

theorem unary {op : UnaryOp} {operand : Expr} (spelled : SpelledBy (.unary op operand) tokens) :
    ∃ p more, tokens = .punct op.symbol false p :: more ∧ operand.SpelledBy more :=
  Token.unplacedAll_eq_punct_cons.mp spelled

end SpelledBy

namespace Grouped

variable {e : Expr} (grouped : e.Grouped)

include grouped

theorem tokens_ne_nil : e.tokens ≠ [] := by
  induction grouped with
  | binary _ _ _ _ ih => simp [Expr.tokens, ih]
  | literal | name | paren | unary => simp [Expr.tokens]

theorem nonempty {tokens : List Token} (spelled : e.SpelledBy tokens) : tokens ≠ [] := by
  rintro rfl
  exact grouped.tokens_ne_nil spelled.symm

theorem grouped_first : e.first.Grouped := by
  induction grouped with
  | binary _ _ _ _ ih => exact ih
  | literal l written => exact .literal l written
  | name text free => exact .name text free
  | paren within => exact .paren within
  | unary tight behind => exact .unary tight behind

/-- The tokens of the first operand and those of the row behind it. -/
theorem exists_parts {tokens : List Token} (spelled : e.SpelledBy tokens) :
    ∃ front back, tokens = front ++ back ∧ e.first.SpelledBy front ∧ Row.SpelledBy e.row back ∧
      0 < Token.sizeOfAll front := by
  rw [SpelledBy, grouped.tokens_eq, Token.unplacedAll_eq_append] at spelled
  obtain ⟨front, back, rfl, first, others⟩ := spelled
  exact ⟨front, back, rfl, first, others,
    Token.sizeOfAll_pos (grouped.grouped_first.nonempty first)⟩

theorem isRange_first : e.first.toTree.isRange = false := by
  induction grouped with
  | binary _ _ _ _ ih => exact ih
  | literal | name | paren | unary => rfl

theorem isComparison_first : e.first.toTree.isComparison = false := by
  induction grouped with
  | binary _ _ _ _ ih => exact ih
  | literal | name | paren | unary => rfl

end Grouped

theorem first_of_tight {e : Expr} (tight : 6 ≤ e.tightness) : e.first = e := by
  cases e with
  | binary op left right =>
    cases op with
    | plain op => cases op <;> simp [tightness, Operator.tightness] at tight
    | _ => rfl
  | literal | name | qualified | unary | paren | group | other => rfl

end Expr

end GoDecl
