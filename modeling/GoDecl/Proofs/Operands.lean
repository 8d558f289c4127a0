import GoDecl.Proofs.Places
import GoDecl.Proofs.Readers

/-! How operands are read. An operand is over where nothing that follows can belong to it; literals,
names, signs and parentheses are then read as themselves. -/
namespace GoDecl.Grammar

/-- Where an expression is over: at the end, before a comma or semicolon, and before a word other
than that of a conversion. -/
def endsExpr : Tokens → Bool
  | [] => true
  | .word w _ :: _ => w ≠ "as"
  | .punct c _ _ :: _ => c = ',' || c = ';'
  | _ => false

/-- Where an operand is over: where the expression is, or before an operator with a meaning. -/
def endsOperand : Tokens → Bool
  | .punct c _ _ :: _ => [',', ';', '+', '-', '*', '/', '%', '<', '>'].contains c
  | a => endsExpr a

theorem endsOperand_of_endsExpr {rest : Tokens} (ends : endsExpr rest) : endsOperand rest := by
  cases rest with
  | nil => rfl
  | cons t rest =>
    cases t with
    | punct c joint p =>
      simp only [endsExpr, Bool.or_eq_true, decide_eq_true_eq] at ends
      rcases ends with rfl | rfl <;> rfl
    | word | literal | group => exact ends

/-- What is not ahead where an operand is over. -/
structure Over (rest : Tokens) : Prop where
  noGroup : ∀ d, seesGroup d rest = false
  noMark : ∀ c ∈ ['.', '?', ':', '!', '#'], ∀ more, seesPunct (c :: more) rest = false

theorem over_of_endsOperand {rest : Tokens} (ends : endsOperand rest) : Over rest := by
  cases rest with
  | nil => exact ⟨fun _ => rfl, fun _ _ _ => seesPunct_nil _⟩
  | cons t rest =>
    cases t with
    | word w p => exact ⟨fun _ => rfl, fun _ _ _ => seesPunct_word ..⟩
    | punct c joint p =>
      refine ⟨fun _ => rfl, fun d member more => seesPunct_other _ _ _ _ _ _ ?_⟩
      rintro rfl
      simp only [List.mem_cons, List.not_mem_nil, or_false] at member
      rcases member with rfl | rfl | rfl | rfl | rfl <;> simp [endsOperand] at ends
    | literal | group => contradiction

section Follow

variable {rest : Tokens} (closed : Over rest)

include closed

theorem Over.noPoint : seesPoint rest = false := by
  simp [seesPoint, closed.noMark '.' (by simp)]

theorem Over.noBang : seesBang rest = false := by
  simp [seesBang, closed.noMark '!' (by simp)]

theorem Over.noPath : seesPunct pathMark rest = false := closed.noMark ':' (by simp) _

theorem trailers_none (r : Rules) (e : Tree) (c : Cursor) :
    trailers r e (c.at rest) = .ok (e, c.at rest) := by
  simp [trailers, trailersFrom, closed.noGroup, closed.noPoint, closed.noMark '?' (by simp)]

end Follow

/-- Nothing goes on with an expression where it is over. -/
structure Ended (rest : Tokens) : Prop where
  noBinary : binaryAhead rest = none
  noAssign : seesAssign rest = false
  noRange : seesPunct ['.', '.'] rest = false
  noCast : seesWord "as" rest = false

theorem ended_of_endsExpr {rest : Tokens} (ends : endsExpr rest) : Ended rest := by
  cases rest with
  | nil => exact ⟨rfl, rfl, rfl, rfl⟩
  | cons t rest =>
    cases t with
    | word w p =>
      have noCast : seesWord "as" (.word w p :: rest) = false := by
        simpa [endsExpr, seesWord] using ends
      exact ⟨by simp [binaryAhead], by simp [seesAssign], by simp, noCast⟩
    | punct c joint p =>
      simp only [endsExpr, Bool.or_eq_true, decide_eq_true_eq] at ends
      rcases ends with rfl | rfl <;> cases joint <;> exact ⟨rfl, rfl, rfl, rfl⟩
    | literal | group => contradiction

theorem outerAttributes_none (r : Rules) (c : Cursor) (absent : seesPunct ['#'] c.ahead = false) :
    outerAttributes r c = .ok ([], c) := by
  simp [outerAttributes, manyWhile, repeated, absent]

/-- A token that no operator in front of an operand begins with. -/
def OpensOperand (t : Token) : Prop :=
  ∀ mark ∈ ['#', '&', '*', '!', '-'], ∀ a, seesPunct [mark] (t :: a) = false

/-- An operand with nothing in front of it and nothing more behind it. -/
theorem unaryRule_operand {r : Rules} {structs : Bool} {c : Cursor} {t : Token} {a rest : Tokens}
    {e : Tree} (opens : OpensOperand t)
    (taken : operand r structs (c.at (t :: a)) = .ok (e, c.at rest)) (closed : Over rest)
    (unchanged : ∀ start place d, attributed start [] place e d = .ok (e, d)) :
    unaryRule r structs (c.at (t :: a)) = .ok (e, c.at rest) := by
  have bare := outerAttributes_none r (c.at (t :: a)) (opens '#' (by simp) a)
  have noReference : seesPunct ['&'] (t :: a) = false := opens '&' (by simp) a
  have noOperator : unaryAhead (t :: a) = none := by
    simp [unaryAhead, UnaryOp.symbol, opens '*' (by simp) a, opens '!' (by simp) a,
      opens '-' (by simp) a]
  simp only [unaryRule, ahead_at_bind, bind_of_ok bare, noReference, noOperator, get_bind,
    Bool.false_eq_true, if_false]
  rw [bind_of_ok taken, bind_of_ok (trailers_none closed r e c), unchanged]

theorem opensOperand_of_noMark {t : Token} (noMark : ∀ c joint p, t ≠ .punct c joint p) :
    OpensOperand t := by
  intro mark _ a
  cases t with
  | punct c joint p => exact absurd rfl (noMark c joint p)
  | word | literal | group => rfl

theorem unaryRule_literal (r : Rules) (structs : Bool) (c : Cursor) (l : Literal) (p : Position)
    {rest : Tokens} (closed : Over rest) :
    unaryRule r structs (c.at (.literal l p :: rest)) = .ok (.literal l, c.at rest) := by
  have taken : operand r structs (c.at (.literal l p :: rest)) = .ok (.literal l, c.at rest) := by
    simp [operand, seesLiteral, literal]
  exact unaryRule_operand (opensOperand_of_noMark nofun) taken closed fun _ _ _ => rfl

section Names

variable {w : String} (free : w ∉ reserved) (p : Position) {rest : Tokens} (c : Cursor)

include free

/-- A word without a fixed role differs from each that has one. -/
theorem seesWord_of_name {fixed : String} (role : fixed ∈ reserved) :
    seesWord fixed (.word w p :: rest) = false := by
  simp only [seesWord, decide_eq_false_iff_not]
  rintro rfl
  exact free role

theorem seesAnyOf_of_name {words : List String} (roles : ∀ fixed ∈ words, fixed ∈ reserved) :
    seesAnyOf words (.word w p :: rest) = false := by
  simp only [seesAnyOf, List.any_eq_false, Bool.not_eq_true]
  exact fun fixed member => seesWord_of_name free p (roles fixed member)

theorem name_word : name (c.at (.word w p :: rest)) = .ok (w, c.at rest) := by
  have noRole : reserved.contains w = false := by simpa using free
  simp only [name, ahead_at_bind, noRole, Bool.false_eq_true, if_false, discard_token_bind]
  rfl

variable (closed : Over rest)

include closed

theorem segment_name (r : Rules) :
    segment r true (c.at (.word w p :: rest)) = .ok ((w, []), c.at rest) := by
  have noPlace : seesAnyOf ["super", "self", "crate", "try"] (.word w p :: rest) = false :=
    seesAnyOf_of_name free p (by decide)
  have noSelf : seesWord "Self" (.word w p :: rest) = false := seesWord_of_name free p (by decide)
  simp only [segment, ahead_at_bind, noPlace, noSelf, Bool.false_eq_true, if_false,
    bind_of_ok (name_word free p c), closed.noPath, Bool.not_true, Bool.false_and, Bool.or_false]
  rfl

/-- A name by itself is a path of one segment. -/
theorem anyPath_name (r : Rules) :
    anyPath r true (c.at (.word w p :: rest)) =
      .ok ({ tokens := [wordToken w], names := [w] }, c.at rest) := by
  have noRoot : optionalPunct pathMark (c.at (.word w p :: rest)) =
      .ok ([], c.at (.word w p :: rest)) := by
    simp [optionalPunct]
  have noMore (soFar : PathRead) (goesOn : Tokens → Bool) (stops : goesOn rest = false)
      (fuel : Nat) :
      pathRest r true goesOn soFar (fuel + 1) (c.at rest) = .ok (soFar, c.at rest) := by
    simp [pathRest, stops]
  simp only [anyPath, ahead_at_bind, seesPunct_word, Bool.false_eq_true, if_false, plainPath,
    bind_of_ok noRoot, bind_of_ok (segment_name free p c closed r)]
  exact noMore _ _ (by simp [closed.noPath]) _

theorem pathExpr_name (r : Rules) (structs : Bool) :
    pathExpr r structs (c.at (.word w p :: rest)) = .ok (.name w, c.at rest) := by
  have noCall (path : PathRead) : bangCall? path (c.at rest) = .ok (none, c.at rest) := by
    simp [bangCall?, closed.noBang]
  simp only [pathExpr, bind_of_ok (anyPath_name free p c closed r), bind_of_ok (noCall _),
    ahead_at_bind, closed.noGroup, Bool.and_false, Bool.false_eq_true, if_false]
  rfl

theorem operand_name (r : Rules) (structs : Bool) :
    operand r structs (c.at (.word w p :: rest)) = .ok (.name w, c.at rest) := by
  have noWord (fixed : String) (role : fixed ∈ reserved) :
      seesWord fixed (.word w p :: rest) = false := seesWord_of_name free p role
  have noLiteral : seesLiteral (.word w p :: rest) = false := by
    have noTrue := noWord "true" (by decide)
    have noFalse := noWord "false" (by decide)
    simp only [seesWord] at noTrue noFalse
    simp only [seesLiteral, noTrue, noFalse, Bool.or_false]
  have noAsync := noWord "async" (by decide)
  have noClosure : seesClosure (.word w p :: rest) = false := by
    simp [seesClosure, seesBoundLifetimes, noAsync, noWord "move" (by decide),
      noWord "for" (by decide), noWord "const" (by decide), noWord "static" (by decide)]
  have noBuiltin : seesBuiltin (.word w p :: rest) = false := by
    have noMark : seesPunct ['#'] rest = false := closed.noMark '#' (by simp) _
    simp [seesBuiltin, second, seesLifetime, noMark]
  have isPath : seesPathExpr (.word w p :: rest) = true := by
    have isName : seesName (.word w p :: rest) = true := by simpa [seesName] using free
    simp [seesPathExpr, seesPathStart, isName]
  simp only [operand, ahead_at_bind, noLiteral, noAsync, noClosure, noBuiltin, isPath,
    Bool.false_and, Bool.false_eq_true, if_false, if_true]
  exact pathExpr_name free p c closed r structs

theorem unaryRule_name (r : Rules) (structs : Bool) :
    unaryRule r structs (c.at (.word w p :: rest)) = .ok (.name w, c.at rest) :=
  unaryRule_operand (opensOperand_of_noMark nofun) (operand_name free p c closed r structs) closed
    fun _ _ _ => rfl

end Names

/-- Parentheses around an expression that takes all between them. -/
theorem unaryRule_paren {r : Rules} (structs : Bool) (c : Cursor) {e : Tree} {inner : Tokens}
    {p q : Position} {rest : Tokens} (nonempty : inner ≠ [])
    (read : ∀ d : Cursor, r.expr true (d.at inner) = .ok (e, d.at [])) (closed : Over rest) :
    unaryRule r structs (c.at (.group .paren inner p q :: rest)) = .ok (.paren e, c.at rest) := by
  have isParen : ∀ a, operand r structs (c.at (.group .paren a p q :: rest)) =
      parenExpr r (c.at (.group .paren a p q :: rest)) := fun _ => rfl
  have taken : parenExpr r (c.at (.group .paren inner p q :: rest)) =
      .ok (.paren e, c.at rest) := by
    refine inside_of_ok fun d => ?_
    have more : (d.at inner).ahead.isEmpty = false := by simpa using nonempty
    simp only [atEnd_bind, more, Bool.false_eq_true, if_false, bind_of_ok (read d)]
    rfl
  exact unaryRule_operand (opensOperand_of_noMark nofun) ((isParen inner).trans taken) closed
    fun _ _ _ => rfl

/-- A sign in front of an operand. -/
theorem unaryRule_sign {r : Rules} (structs : Bool) (c : Cursor) (op : UnaryOp) (joint : Bool)
    (p : Position) {a rest : Tokens} {e : Tree}
    (read : r.unary structs (c.at a) = .ok (e, c.at rest)) :
    unaryRule r structs (c.at (.punct op.symbol joint p :: a)) = .ok (.unary op e, c.at rest) := by
  have bare := outerAttributes_none r (c.at (.punct op.symbol joint p :: a))
    (seesPunct_other _ _ _ _ _ _ (by cases op <;> decide))
  have noReference : seesPunct ['&'] (.punct op.symbol joint p :: a) = false :=
    seesPunct_other _ _ _ _ _ _ (by cases op <;> decide)
  have isAhead : unaryAhead (.punct op.symbol joint p :: a) = some op := by
    cases op <;> cases joint <;> rfl
  have sign : punct [op.symbol] (c.at (.punct op.symbol joint p :: a)) =
      .ok ([.punct op.symbol false p], c.at a) := by
    cases op <;> cases joint <;> rfl
  simp only [unaryRule, ahead_at_bind, bind_of_ok bare, noReference, isAhead, Bool.false_eq_true,
    if_false, bind_of_ok (discard_of_ok sign), bind_of_ok read]
  rfl

end GoDecl.Grammar
