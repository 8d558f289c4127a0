import GoDecl.Proofs.Declarations
import GoDecl.Proofs.History
import GoDecl.Proofs.Spelling

/-! What a source begins with. Tokens that are cut off its front stay in front, whatever comes
behind them, and reading never goes back in front of an operand: an expression whose first token is
a literal has it as its first operand, and a string there begins whatever string the expression
stands for. -/
namespace GoDecl

open Grammar Text Entry

namespace Token

/-- The tokens that are cut off the front of the text are as the row asks for. -/
abbrev Begins : List Char → (List Token → Prop) → Prop := CutsInto fun _ _ => True

theorem Begins.start (text : List Char) : Begins text (· = []) :=
  fun p fuel _ => ⟨[], (cut fuel p text).1, (cut fuel p text).2, rfl, rfl, trivial⟩

/-- The tokens outside all brackets, last first. -/
def outside (done : List Token) : List Open → List Token
  | [] => done
  | o :: outer => outside o.before outer

theorem outside_suffix {done more : List Token} (behind : done <:+ more) (outer : List Open) :
    outside done outer <:+ outside more outer := by
  cases outer with
  | nil => exact behind
  | cons o outer => exact List.suffix_rfl

/-- What stands outside all brackets is there to stay. -/
theorem outside_suffix_of_nest {fault : Option Position} {done : List Token} {outer : List Open}
    {row : List Lexeme} {tokens : List Token} (nested : nest fault done outer row = .ok tokens) :
    outside done outer <:+ tokens.reverse := by
  induction row generalizing done outer with
  | nil =>
    cases fault <;> cases outer <;> simp only [nest, Except.ok.injEq, reduceCtorEq] at nested
    rw [← nested, List.reverse_reverse]
    exact List.suffix_rfl
  | cons lexeme row ih =>
    cases lexeme with
    | leaf t => exact (outside_suffix (List.suffix_cons t done) outer).trans (ih nested)
    | opening d p =>
      show outside [] (⟨d, p, done⟩ :: outer) <:+ tokens.reverse
      exact ih nested
    | closing d p =>
      cases outer with
      | nil => cases nested
      | cons o outer =>
        simp only [nest] at nested
        split at nested
        · exact (outside_suffix (List.suffix_cons _ o.before) outer).trans (ih nested)
        · cases nested

theorem nest_leaves_append (fault : Option Position) (done : List Token) (tokens : List Token)
    (more : List Lexeme) :
    nest fault done [] (tokens.map .leaf ++ more) =
      nest fault (tokens.reverse ++ done) [] more := by
  induction tokens generalizing done with
  | nil => rfl
  | cons t tokens ih => simp [nest, ih]

theorem lex_of_begins {text : List Char} {row : List Token → Prop} (begins : Begins text row)
    (unmarked : text.head? ≠ some '\ufeff') {tokens : List Token} (read : lex text = .ok tokens) :
    ∃ front more, tokens = front ++ more ∧ row front := by
  obtain ⟨front, more, fault, cutText, holds, -⟩ := begins {} (text.length + 1) (Nat.lt_succ_self _)
  rw [lex_unmarked text unmarked, cutText, nest_leaves_append, List.append_nil] at read
  have behind : front.reverse <:+ tokens.reverse := outside_suffix_of_nest read
  obtain ⟨rest, rfl⟩ := List.reverse_suffix.mp behind
  exact ⟨front, rest, rfl, holds⟩

end Token

/-- The expression has no value at all, or its first operand is the literal. -/
inductive Expr.LedBy (l : Literal) : Expr → Prop
  | literal : LedBy l (.literal l)
  | binary {left : Expr} (op : BinaryOp) (right : Expr) (led : LedBy l left) :
    LedBy l (.binary op left right)
  | other (shape : Shape) (tokens : Tokens) : LedBy l (.other shape tokens)

/-- Strings only get longer, and on the right; what else comes of them are truth values. -/
theorem Expr.LedBy.value {text s : String} {e : Expr} (led : e.LedBy (.string text s))
    {env : Environment} {v : Value} (valued : e.value env = .ok v) :
    (∃ more, v = .string (s ++ more)) ∨ ∃ b, v = .bool b := by
  induction led generalizing v with
  | literal =>
    cases valued
    exact .inl ⟨"", by rw [String.append_empty]⟩
  | other => contradiction
  | @binary left op right _ ih =>
    obtain ⟨a, first, rest⟩ := bind_eq_ok.mp valued
    obtain ⟨b, -, applied⟩ := bind_eq_ok.mp rest
    cases op with
    | plain op =>
      rcases ih first with ⟨more, rfl⟩ | ⟨x, rfl⟩
      · cases b with
        | string t =>
          cases op <;> cases applied
          · exact .inl ⟨more ++ t, by rw [String.append_assoc]⟩
          all_goals exact .inr ⟨_, rfl⟩
        | int | float | rune | bool => cases applied
      · cases b <;> cases applied
    | _ => cases applied

namespace Grammar

/-- Whatever the reader gives back is as `found` says. -/
def Gives {α : Type} (found : α → Prop) (reader : Parser α) : Prop :=
  ∀ c a d, reader c = .ok (a, d) → found a

namespace Gives

variable {α β : Type} {found : β → Prop} {first : α → Prop} {reader : Parser α}
  {next : α → Parser β}

theorem pure {b : β} (holds : found b) : Gives found (Pure.pure b) := by
  rintro c _ _ ⟨⟩
  exact holds

theorem throw (fault : Fault) : Gives found (throw fault : Parser β) := nofun

theorem bind (one : Gives first reader) (other : ∀ a, first a → Gives found (next a)) :
    Gives found (reader >>= next) := by
  intro c b e taken
  obtain ⟨a, d, before, after⟩ := ok_of_bind taken
  exact other a (one c a d before) d b e after

/-- What comes first does not matter to what is given back. -/
theorem behind (other : ∀ a, Gives found (next a)) : Gives found (reader >>= next) :=
  .bind (show Gives (fun _ => True) reader from fun _ _ _ _ => trivial) fun a _ => other a

theorem ite {p : Prop} [Decidable p] {one other : Parser β} (yes : Gives found one)
    (no : Gives found other) : Gives found (if p then one else other) := by
  split
  · exact yes
  · exact no

end Gives

theorem gives_refuse {α : Type} (found : α → Prop) (message : String) :
    Gives found (refuse message) := .behind fun _ => .throw _

/-- What is read becomes an expression that the literal begins. -/
def Tree.LedBy (l : Literal) (e : Tree) : Prop := e.toExpr.LedBy l

section Operands

variable {l : Literal} {r : Rules} {e left : Tree}

theorem floatSelectors_ledBy (led : e.LedBy l) (place : Position) (parts : List String) :
    Gives (Tree.LedBy l) (floatSelectors place e parts) := by
  induction parts generalizing e with
  | nil => exact .pure led
  | cons part rest ih => exact .behind fun index => ih (.other _ _)

theorem selector_ledBy (l : Literal) (r : Rules) (e : Tree) :
    Gives (Tree.LedBy l) (selector r e) := by
  refine .behind fun a => .ite (.behind fun _ => .pure (.other _ _)) (.behind fun part => ?_)
  have parted (types : Tokens) : Gives (Tree.LedBy l) (do
      if !types.isEmpty || part.2 && seesGroup .paren (← ahead) then
        let call ← group .paren (exprList r)
        return .trailer .method e (Token.operator ['.'] ++ part.1 :: types ++ call)
      else return .trailer .part e (Token.operator ['.'] ++ [part.1])) :=
    .behind fun _ => .ite (.behind fun _ => .pure (.other _ _)) (.pure (.other _ _))
  exact .behind fun _ => .ite (.behind parted) (.behind parted)

theorem pointTrailer_ledBy (led : e.LedBy l) : Gives (Tree.LedBy l) (pointTrailer r e) := by
  refine .behind fun _ => .behind fun a => .ite ?_ (selector_ledBy l r e)
  exact .behind fun place => .behind fun text => .bind (floatSelectors_ledBy led _ _)
    fun selected led => .ite (selector_ledBy l r selected) (.pure led)

/-- Whatever stands behind the operand, it stays first. -/
theorem trailersFrom_ledBy (led : e.LedBy l) (fuel : Nat) :
    Gives (Tree.LedBy l) (trailersFrom r e fuel) := by
  induction fuel generalizing e with
  | zero => exact .throw _
  | succ fuel ih =>
    refine .behind fun a => .ite (.behind fun _ => ih (.other _ _)) (.ite ?_ (.ite ?_ ?_))
    · exact .bind (pointTrailer_ledBy led) fun _ selected => ih selected
    · exact .behind fun _ => ih (.other _ _)
    · exact .ite (.behind fun _ => ih (.other _ _)) (.pure led)

theorem Tree.mark_nil (e : Tree) : e.mark [] = e := by
  unfold mark
  split <;> rfl

theorem attributed_ledBy (led : e.LedBy l) (start : Tokens) (place : Position) :
    Gives (Tree.LedBy l) (attributed start [] place e) := by
  unfold attributed
  split
  · exact .behind fun _ => .pure (.other _ _)
  · rw [Tree.mark_nil]
    exact .ite (.throw _) (.pure led)

theorem operatorsRule_ledBy
    (inner : ∀ left structs base, left.LedBy l →
      Gives (Tree.LedBy l) (r.operators left structs base))
    (led : left.LedBy l) (structs : Bool) (base : Precedence) :
    Gives (Tree.LedBy l) (operatorsRule r left structs base) := by
  refine .behind fun a => .ite (.pure led) ?_
  split
  · next op _ =>
    refine .ite (.pure led) (.ite ?_ (.behind fun _ => .behind fun right => ?_))
    · exact gives_refuse _ _
    · exact inner _ _ _ (.binary op _ led)
  · refine .ite (.behind fun _ => .behind fun _ => inner _ _ _ (.other _ _)) (.ite ?_ (.ite ?_ ?_))
    · refine .behind fun found => ?_
      split
      · exact .pure (.other _ _)
      · exact .pure (.other _ _)
    · refine .behind fun _ => .behind fun type => .behind fun b => ?_
      split
      · exact gives_refuse _ _
      · exact inner _ _ _ (.other _ _)
    · exact .pure led

/-- At every depth the operators go on behind what is first. -/
theorem Rules.operators_ledBy (n : Nat) (left : Tree) (structs : Bool) (base : Precedence)
    (led : left.LedBy l) :
    Gives (Tree.LedBy l) ((Rules.atDepth n).operators left structs base) := by
  induction n generalizing left structs base with
  | zero => exact .throw _
  | succ n ih => exact operatorsRule_ledBy ih led structs base

/-- An operand that is a literal token, with its trailers. -/
theorem unaryRule_ledBy (structs : Bool) (c : Cursor) (p : Position) (rest : Tokens) {d : Cursor}
    (read : unaryRule r structs (c.at (.literal l p :: rest)) = .ok (e, d)) : e.LedBy l := by
  have opens : OpensOperand (.literal l p) := opensOperand_of_noMark nofun
  have bare := outerAttributes_none r (c.at (.literal l p :: rest)) (opens '#' (by simp) rest)
  have noReference : seesPunct ['&'] (.literal l p :: rest) = false := opens '&' (by simp) rest
  have noOperator : unaryAhead (.literal l p :: rest) = none := by
    simp [unaryAhead, UnaryOp.symbol]
  have taken : operand r structs (c.at (.literal l p :: rest)) = .ok (.literal l, c.at rest) := by
    simp [operand, seesLiteral, literal]
  simp only [unaryRule, ahead_at_bind, bind_of_ok bare, noReference, noOperator, get_bind,
    Bool.false_eq_true, if_false] at read
  rw [bind_of_ok taken] at read
  have behind : Gives (Tree.LedBy l) (trailers r (.literal l)) :=
    .behind fun _ => trailersFrom_ledBy (show Tree.LedBy l (.literal l) from .literal) _
  exact Gives.bind behind (fun _ led => attributed_ledBy led _ _) _ _ _ read

theorem Rules.unary_ledBy (n : Nat) (structs : Bool) (c : Cursor) (p : Position) (rest : Tokens)
    {d : Cursor}
    (read : (Rules.atDepth n).unary structs (c.at (.literal l p :: rest)) = .ok (e, d)) :
    e.LedBy l := by
  cases n with
  | zero => cases read
  | succ n => exact unaryRule_ledBy structs c p rest read

theorem Rules.expr_ledBy (n : Nat) (structs : Bool) (c : Cursor) (p : Position) (rest : Tokens)
    {d : Cursor}
    (read : (Rules.atDepth n).expr structs (c.at (.literal l p :: rest)) = .ok (e, d)) :
    e.LedBy l := by
  cases n with
  | zero => cases read
  | succ n =>
    obtain ⟨first, f, one, more⟩ := ok_of_bind read
    exact operators_ledBy n first structs .jump (unary_ledBy n structs c p rest one) f e d more

/-- An expression whose first token is a literal begins with it. -/
theorem expression_ledBy (c : Cursor) (p : Position) (rest : Tokens) {e : Expr} {d : Cursor}
    (read : expression (c.at (.literal l p :: rest)) = .ok (e, d)) : e.LedBy l := by
  simp only [expression, ahead_at_bind] at read
  obtain ⟨tree, f, whole, made⟩ := ok_of_bind read
  cases made
  exact Rules.expr_ledBy _ true c p rest whole

end Operands

end Grammar

/-- A declaration of one name without a type. -/
def Declaration.untyped (x : String) (values : List Expr) : Declaration :=
  .value .var [{ names := [x], type := none, values }]

section Declared

variable (c : Cursor) (p q r s : Position) (joint : Bool) (x : String)

/-- What comes next does the same behind two readings that end alike. -/
theorem bind_of_eq {α β : Type} {first other : Parser α} {c d : Cursor}
    (same : first c = other d) (next : α → Parser β) :
    (first >>= next) c = (other >>= next) d := by
  change (first c >>= fun p => next p.1 p.2) = _
  rw [same]
  rfl

/-- Further values, each behind a comma. -/
def moreValues : Parser (List Expr) := do commaItems expression ((← ahead).length + 1)

/-- One name without a type is read with the values behind it. -/
theorem valueSpec_untyped (a : Tokens) :
    valueSpec (c.at (.word x q :: .punct '=' joint r :: a)) =
      (expression >>= fun e => moreValues >>= fun others =>
        pure { names := [x], type := none, values := e :: others }) (c.at a) := by
  let equals : Tokens := .punct '=' joint r :: a
  have named : Enumerated (Spells Token.word) [x] [.word x q] :=
    ⟨x, [], _, [], rfl, rfl, ⟨q, rfl⟩, .nil⟩
  have names : commaList anyWord (c.at (.word x q :: equals)) = .ok ([x], c.at equals) :=
    commaList_enumerated (anyWord_takes id) (fun _ _ _ => trivial) named equals trivial
      (by simp [equals]) c
  have noType : optionalType (c.at equals) = .ok (none, c.at equals) :=
    show optionalType (c.at ([] ++ equals)) = _ from optionalType_spelled c .absent nofun
      (by simp [equals, endsType, startsType, seesGroup, seesArrow, seesAnyWord]) fun _ => rfl
  have isEquals : seesPunct ['='] equals = true := by cases joint <;> rfl
  rw [valueSpec_eq, bind_of_ok names, bind_of_ok noType]
  simp only [initialisers, commaList, bind_assoc, ite_bind, ahead_at_bind, isEquals, if_true]
  rfl

theorem topDeclaration_untyped (a : Tokens) :
    topDeclaration (c.at (.word "var" p :: .word x q :: .punct '=' joint r :: a)) =
      (expression >>= fun e => moreValues >>= fun others =>
        pure (Declaration.untyped x (e :: others))) (c.at a) := by
  have one : valueSpecs (c.at (.word x q :: .punct '=' joint r :: a)) =
      (valueSpec >>= fun spec => pure [spec]) (c.at (.word x q :: .punct '=' joint r :: a)) := rfl
  have value := bind_of_eq (valueSpec_untyped c q r joint x a) fun spec => pure [spec]
  have declared := bind_of_eq (one.trans value) fun specs => pure (Declaration.value .var specs)
  simp only [bind_assoc, pure_bind] at declared
  exact (topDeclaration_valueWord .var p _ c).trans declared

/-- The declarations go on behind the values. -/
theorem itemsFrom_untyped (n : Nat) (a : Tokens) :
    itemsFrom topDeclaration (n + 1)
        (c.at (.word "var" p :: .word x q :: .punct '=' joint r :: a)) =
      (expression >>= fun e => moreValues >>= fun values =>
        itemsFrom topDeclaration n >>= fun others =>
          pure (Declaration.untyped x (e :: values) :: others)) (c.at a) := by
  have one := bind_of_eq (topDeclaration_untyped c p q r joint x a) fun first =>
    itemsFrom topDeclaration n >>= fun others => pure (first :: others)
  simp only [bind_assoc, pure_bind] at one
  exact (itemsFrom_word topDeclaration n c ..).trans one

/-- What is declared with a literal as the first token of its value, if it is read at all. -/
theorem readAll_ledBy {l : Literal} (more : Tokens) {declarations : List Declaration}
    (read : Declaration.readAll
      (.word "var" p :: .word x q :: .punct '=' joint r :: .literal l s :: more) =
        .ok declarations) :
    ∃ e values others, e.LedBy l ∧ declarations = .untyped x (e :: values) :: others := by
  let c : Cursor := { ahead := [] }
  obtain ⟨e, run, -⟩ := readAll_eq_ok.mp read
  have items := (itemsFrom_untyped c p q r joint x _ _).symm.trans run
  obtain ⟨e, d, value, rest⟩ := ok_of_bind items
  obtain ⟨values, d, -, rest⟩ := ok_of_bind rest
  obtain ⟨others, _, -, ⟨⟩⟩ := ok_of_bind rest
  exact ⟨e, values, others, expression_ledBy c s more value, rfl⟩

end Declared

/-- A source is read from the tokens of its normal form. -/
theorem parse_eq_ok {source : String} {declarations : List Declaration} :
    Declaration.parse source = .ok declarations ↔
      ∃ tokens, Token.lex (Source.normal source.toList) = .ok tokens ∧
        Declaration.readAll tokens = .ok declarations := by
  unfold Declaration.parse readText Declaration.readAll
  cases Token.lex (Source.normal source.toList) with
  | error place => simp
  | ok tokens =>
    cases read : Grammar.readAll (items topDeclaration) tokens with
    | ok result => simp [read]
    | error fault => cases fault <;> simp [read]

/-- Where a source has slots, it was read. -/
theorem parse_of_evaluate {settings : Settings} {text : String} {env : Environment}
    {slots : List Slot} (answer : (evaluate settings text env).answer = .ok slots) :
    ∃ declarations, Declaration.parse text = .ok declarations ∧
      Entry.slots (declarations.flatMap (·.entries settings)) env = slots := by
  cases parsed : Declaration.parse text with
  | error e =>
    rw [(evaluate_of_parse_error settings text env e parsed).1] at answer
    cases answer
  | ok declarations =>
    rw [(evaluate_of_parse_ok settings text env declarations parsed).1,
      (evalDeclarations_filledBy settings _).answer] at answer
    exact ⟨declarations, rfl, Except.ok.inj answer⟩

section Slots

variable {settings : Settings} {env : Environment} {x : String} {e : Expr} {values : List Expr}
  {others : List Declaration}

/-- The first slot is that of the first value, and the others come behind its name. -/
theorem slots_untyped :
    slots ((Declaration.untyped x (e :: values) :: others).flatMap (·.entries settings)) env =
      let slot := (e.eval settings.maxDepth env).answer.toOption
      slot :: slots (others.flatMap (·.entries settings)) (Environment.bindSlot x slot env).env :=
  rfl

theorem value_of_slots {v : Value} {more : List Slot}
    (filled : slots ((Declaration.untyped x (e :: values) :: others).flatMap
      (·.entries settings)) env = some v :: more) : e.value env = .ok v := by
  rw [slots_untyped] at filled
  have first : (e.eval settings.maxDepth env).answer.toOption = some v := (List.cons.inj filled).1
  cases answer : (e.eval settings.maxDepth env).answer with
  | error => simp [answer, Except.toOption] at first
  | ok w =>
    rw [answer] at first
    cases first
    exact ((e.eval_ok_iff settings.maxDepth env v).mp answer).2

end Slots

end GoDecl
