import GoDecl.Decl.Parser
import GoDecl.Proofs.Faults.Items

/-! Faults among expressions and statements, in the rules tied together, and in declarations. -/
namespace GoDecl.Grammar

variable {real : Position → Prop} {r : Rules}

@[grind ←] theorem points_head (rules : r.Points real) : Points real (head r) :=
  .bind (rules.expr _) fun _ => .pure _

@[grind ←] theorem points_ifFrom (rules : r.Points real) (fuel : Nat) :
    Points real (ifFrom r fuel) := by
  induction fuel with
  | zero => exact points_exhausted
  | succ fuel ih =>
    unfold ifFrom
    grind

@[grind ←] theorem points_ifExpr (rules : r.Points real) : Points real (ifExpr r) :=
  .bind points_ahead fun _ => points_ifFrom rules _

@[grind ←] theorem points_whileExpr (rules : r.Points real) : Points real (whileExpr r) :=
  .bind (points_word _) fun _ => .bind (points_head rules) fun _ =>
    .bind (points_attributedBlock rules) fun _ => .pure _

@[grind ←] theorem points_forExpr (rules : r.Points real) : Points real (forExpr r) :=
  .bind (points_word _) fun _ => .bind (points_alternativeTokens rules) fun _ =>
    .bind (points_word _) fun _ => .bind (points_head rules) fun _ =>
      .bind (points_attributedBlock rules) fun _ => .pure _

@[grind ←] theorem points_loopExpr (rules : r.Points real) : Points real (loopExpr r) :=
  .bind (points_word _) fun _ => .bind (points_attributedBlock rules) fun _ => .pure _

@[grind ←] theorem points_labelled (rules : r.Points real) : Points real (labelled r) := by
  unfold labelled
  grind

@[grind ←] theorem points_arm (rules : r.Points real) : Points real (arm r) := by
  unfold arm
  refine .bind (points_outerAttributes rules) fun attributes => ?_
  refine .bind (points_alternativeTokens rules) fun pattern => .bind points_ahead fun a => ?_
  refine .ite (.bind (points_word _) fun keyword => .bind (points_value rules) fun value =>
    .bind (.pure _) ?rest) (.bind (.pure []) ?rest)
  refine fun guarded => .bind (points_punct _) fun arrow => .bind rules.statementExpr fun body => ?_
  grind

@[grind ←] theorem points_matchExpr (rules : r.Points real) : Points real (matchExpr r) :=
  .bind (points_word _) fun _ => .bind (points_head rules) fun _ =>
    .bind (points_group _
         (.bind (points_innerAttributes rules) fun _ =>
            .bind (points_untilEnd (points_arm rules)) fun _ => .pure _)) fun _ => .pure _

@[grind ←] theorem points_blockLike? (rules : r.Points real) : Points real (blockLike? r) := by
  unfold blockLike?
  refine .bind points_ahead fun a => ?_
  repeat' apply Points.ite
  all_goals grind

@[grind ←] theorem points_statementExprRule (rules : r.Points real) :
    Points real (statementExprRule r) := by
  unfold statementExprRule
  refine .bind (points_outerAttributes rules) fun attributes => ?_
  refine .bind (points_blockLike? rules) fun e? => ?_
  cases e? with
  | some e => grind
  | none => exact .bind (rules.unary true) fun _ => rules.operators _ _ _

@[grind ←] theorem points_letStatement (rules : r.Points real) : Points real (letStatement r) := by
  unfold letStatement
  refine .bind (points_word _) fun keyword => .bind (points_pattern rules) fun pattern => ?_
  refine .bind points_ahead fun a => ?_
  refine .ite (.bind (points_punct _) fun colon => .bind (points_typeTokens rules) fun type =>
    .bind (.pure _) ?rest) (.bind (.pure []) ?rest)
  refine fun type => .bind points_ahead fun b => .ite (.bind (points_punct _) fun eq => ?_) ?_
  · refine .bind (rules.expr true) fun e => .bind points_ahead fun c => ?_
    grind
  · grind

@[grind ←] theorem points_bangAhead : Points real bangAhead := by
  unfold bangAhead
  grind

@[grind ←] theorem points_bangStatement : Points real bangStatement :=
  .bind points_namePath fun _ => .bind (points_punct _) fun _ => .bind points_anyGroup fun _ =>
    .bind (points_optionalPunct _) fun _ => .pure _

@[grind ←] theorem points_statement (rules : r.Points real) : Points real (statement r) := by
  unfold statement
  refine .bind points_ahead fun start => .bind (points_outerAttributes rules) fun attributes => ?_
  refine .bind points_ahead fun a => .bind points_bangAhead fun bang => ?_
  cases bang with
  | statement => exact .bind points_bangStatement fun _ => .pure _
  | item => exact .bind (rules.item start attributes) fun _ => .pure _
  | none => grind

@[grind ←] theorem points_statementsFrom (rules : r.Points real) (fuel : Nat) :
    Points real (statementsFrom r fuel) := by
  induction fuel with
  | zero => exact points_exhausted
  | succ fuel ih =>
    unfold statementsFrom
    grind

@[grind ←] theorem points_statementsRule (rules : r.Points real) :
    Points real (statementsRule r) :=
  .bind points_ahead fun _ => points_statementsFrom rules _

@[grind ←] theorem points_jumpExpr (rules : r.Points real) (keyword : String) (label : Tokens)
    (mayFollow : Tokens → Bool) :
    Points real (jumpExpr r keyword label mayFollow) :=
  .bind points_ahead fun _ => .ite (.bind (rules.expr _) fun _ => .pure _) (.pure _)

@[grind ←] theorem points_breakExpr (rules : r.Points real) (structs : Bool) :
    Points real (breakExpr r structs) := by
  unfold breakExpr
  grind

@[grind ←] theorem points_continueExpr : Points real continueExpr :=
  .bind (points_word _) fun _ => .bind points_ahead fun _ =>
    .ite (.bind points_lifetime fun _ => .pure _) (.pure _)

@[grind ←] theorem points_closureParameter (rules : r.Points real) :
    Points real (closureParameter r) := by
  unfold closureParameter
  refine .bind (points_outerAttributes rules) fun attributes => ?_
  refine .bind (points_pattern rules) fun pattern => .bind points_ahead fun a => ?_
  refine .ite (.bind (points_punct _) fun _ => .bind (points_typeTokens rules) fun _ => .pure _) ?_
  split
  · exact .pure _
  · exact .pure _
  · exact .ite (.pure _) (.pure _)
  · exact .pure _

@[grind ←] theorem points_closureExpr (rules : r.Points real) (structs : Bool) :
    Points real (closureExpr r structs) := by
  unfold closureExpr
  refine .bind (points_boundLifetimes rules) fun lifetimes => ?_
  refine .bind (points_optionalWord _) fun constant => ?_
  refine .bind (points_optionalWord _) fun static => ?_
  refine .bind (points_optionalWord _) fun async => .bind (points_optionalWord _) fun moves => ?_
  refine .bind (points_punct _) fun opening => ?_
  refine .bind (points_listUntil _ (points_closureParameter rules)) fun parameters => ?_
  grind

@[grind ←] theorem points_field (rules : r.Points real) : Points real (field r) := by
  unfold field
  grind

@[grind ←] theorem points_fields (rules : r.Points real) (fuel : Nat) :
    Points real (fields r fuel) := by
  induction fuel with
  | zero => exact points_exhausted
  | succ fuel ih =>
    unfold fields
    grind

@[grind ←] theorem points_pathExpr (rules : r.Points real) (structs : Bool) :
    Points real (pathExpr r structs) := by
  unfold pathExpr
  refine .bind (points_anyPath rules true) fun p => .bind (points_bangCall? p) fun call? => ?_
  cases call? with
  | some call => exact .pure _
  | none => grind

@[grind ←] theorem points_parenExpr (rules : r.Points real) : Points real (parenExpr r) :=
  points_inside _
    (.bind points_atEnd fun _ =>
       .ite (.pure _)
         (.bind (rules.expr _) fun _ => .bind points_atEnd fun _ =>
            .ite (.pure _)
              (.bind (points_punct _) fun _ => .bind (points_exprList rules) fun _ => .pure _)))

@[grind ←] theorem points_arrayExpr (rules : r.Points real) : Points real (arrayExpr r) := by
  unfold arrayExpr
  grind

@[grind ←] theorem points_letExpr (rules : r.Points real) (structs : Bool) :
    Points real (letExpr r structs) :=
  .bind (points_discard (points_word _)) fun _ => .bind (points_alternativeTokens rules) fun _ =>
    .bind (points_discard (points_punct _)) fun _ => .bind (rules.unary _) fun _ =>
      .bind (rules.operators _ _ _) fun _ => .pure _

@[grind ←] theorem points_rangeDots : Points real rangeDots :=
  .bind points_ahead fun _ => .ite (points_punct _) (.ite (points_refuseFor _) (points_punct _))

@[grind ←] theorem points_sliceEnd (rules : r.Points real) (structs : Bool) :
    Points real (sliceEnd r structs) :=
  .bind points_rangeDots fun _ => .bind points_ahead fun _ =>
    .ite (.pure _) (.bind (rules.operand _ _) fun _ => .pure _)

@[grind ←] theorem points_literal : Points real literal := by
  unfold literal
  refine .bind points_token fun first => ?_
  split
  · exact .pure _
  · exact .pure _
  · exact points_refuse _

@[grind ←] theorem points_operand (rules : r.Points real) (structs : Bool) :
    Points real (operand r structs) := by
  unfold operand
  have tail : Points real (written do
      discard token
      r.expr true) :=
    points_written (.bind (points_discard points_token) fun _ => rules.expr true)
  refine .bind points_ahead fun a => ?_
  repeat' apply Points.ite
  all_goals grind

@[grind ←] theorem points_referenceExpr (rules : r.Points real) (structs : Bool) :
    Points real (referenceExpr r structs) :=
  .bind (points_punct _) fun _ => .bind points_ahead fun _ =>
    .ite
      (.bind points_token fun _ => .bind points_token fun _ => .bind (rules.unary _) fun _ =>
         .pure _)
      (.bind (points_optionalWord _) fun _ => .bind (rules.unary _) fun _ => .pure _)

@[grind ←] theorem points_attributed (start attributes : Tokens) {place : Position}
    (there : real place) (e : Tree) :
    Points real (attributed start attributes place e) := by
  unfold attributed
  split
  · exact .bind (points_since start) fun _ => .pure _
  · exact .ite (points_throw there) (.pure _)

@[grind ←] theorem points_unaryRule (rules : r.Points real) (structs : Bool) :
    Points real (unaryRule r structs) := by
  unfold unaryRule
  refine .bind points_ahead fun start => .bind (points_outerAttributes rules) fun attributes => ?_
  refine .bind points_ahead fun a => .ite (by grind) ?_
  split
  · exact .bind (points_discard (points_punct _)) fun _ => .bind (rules.unary _) fun _ => .pure _
  · grind

@[grind ←] theorem points_operatorsRule (rules : r.Points real) (left : Tree) (structs : Bool)
    (base : Precedence) :
    Points real (operatorsRule r left structs base) := by
  unfold operatorsRule
  refine .bind points_ahead fun a => .ite (.pure left) ?_
  split
  · grind
  · refine .ite (by grind) (.ite ?_ (.ite ?_ (.pure left)))
    · refine .bind (points_sliceEnd rules structs) fun found => ?_
      split
      · exact .pure _
      · exact .pure _
    · refine .bind (points_discard (points_word _)) fun _ => .bind (rules.type false) fun type => ?_
      refine .bind points_ahead fun b => ?_
      split
      · exact points_refuse _
      · exact rules.operators _ _ _

@[grind ←] theorem points_operandTailRule (rules : r.Points real) (right : Tree)
    (structs : Bool) (above : Precedence) :
    Points real (operandTailRule r right structs above) :=
  .bind points_ahead fun _ =>
    .ite
      (.bind (rules.operators _ _ _) fun _ => .bind points_ahead fun _ =>
         .ite (.pure _) (rules.operandTail _ _ _))
      (.pure _)

@[grind ←] theorem points_operandRule (rules : r.Points real) (structs : Bool)
    (above : Precedence) :
    Points real (operandRule r structs above) :=
  .bind (rules.unary _) fun _ => rules.operandTail _ _ _

@[grind ←] theorem points_exprRule (rules : r.Points real) (structs : Bool) :
    Points real (exprRule r structs) :=
  .bind (rules.unary _) fun _ => rules.operators _ _ _

theorem Rules.points_none : Rules.none.Points real where
  expr _ := points_exhausted
  unary _ := points_exhausted
  operators _ _ _ := points_exhausted
  operand _ _ := points_exhausted
  operandTail _ _ _ := points_exhausted
  type _ := points_exhausted
  bound _ _ := points_exhausted
  pattern := fun _ _ => trivial
  statementExpr := points_exhausted
  statements := points_exhausted
  item _ _ := points_exhausted
  useTree _ := points_exhausted

/-- At every depth, by the rules of the depth below. -/
theorem Rules.points_atDepth (n : Nat) : (Rules.atDepth n).Points real := by
  induction n with
  | zero => exact Rules.points_none
  | succ n ih =>
    exact {
      expr := points_exprRule ih
      unary := points_unaryRule ih
      operators := points_operatorsRule ih
      operand := points_operandRule ih
      operandTail := points_operandTailRule ih
      type := points_typeRule ih
      bound := points_boundRule ih
      pattern := finds_patternRule ih
      statementExpr := points_statementExprRule ih
      statements := points_statementsRule ih
      item := points_itemRule ih
      useTree := points_useTreeRule ih }

@[grind ←] theorem points_expression : Points real expression := by
  unfold expression
  refine .bind points_ahead fun a => ?_
  exact .bind ((Rules.points_atDepth (depthFor a)).expr true) fun e => .pure _

end GoDecl.Grammar

namespace GoDecl

open Grammar

variable {real : Position → Prop}

@[grind ←] theorem points_require (sees : Tokens → Bool) (complaint : String) :
    Points real (require sees complaint) :=
  .bind points_ahead fun _ => .ite (.bind points_token fun _ => .pure _) (points_refuse _)

@[grind ←] theorem points_optionalToken (sees : Tokens → Bool) :
    Points real (optionalToken sees) :=
  .bind points_ahead fun _ => .ite (.bind points_token fun _ => .pure _) (.pure _)

@[grind ←] theorem points_arrow : Points real arrow :=
  .bind points_token fun _ => .bind points_token fun _ => .pure _

@[grind ←] theorem points_namedType : Points real namedType := by
  unfold namedType
  grind

/-- A type and a signature by the fuel, which they share. -/
theorem points_typeTokens_signature (fuel : Nat) :
    Points real (typeTokens fuel) ∧ Points real (signature fuel) := by
  induction fuel with
  | zero => exact ⟨points_exhausted, points_exhausted⟩
  | succ fuel ih =>
    obtain ⟨type, result⟩ := ih
    constructor
    · unfold typeTokens
      refine .bind points_ahead fun a => ?_
      repeat' apply Points.ite
      all_goals grind
    · unfold signature
      grind

theorem points_typeFuel : Points real typeFuel := .bind points_ahead fun _ => .pure _

@[grind ←] theorem points_declaredType : Points real declaredType :=
  .bind points_typeFuel fun fuel => (points_typeTokens_signature fuel).1

@[grind ←] theorem points_commaItems {α : Type} {item : Parser α} (one : Points real item)
    (fuel : Nat) : Points real (commaItems item fuel) := by
  induction fuel with
  | zero => exact points_exhausted
  | succ fuel ih =>
    unfold commaItems
    grind

@[grind ←] theorem points_commaList {α : Type} {item : Parser α} (one : Points real item) :
    Points real (commaList item) :=
  .bind one fun _ => .bind points_ahead fun _ => .bind (points_commaItems one _) fun _ => .pure _

@[grind ←] theorem points_valueSpec : Points real valueSpec := by
  unfold valueSpec
  refine .bind (points_commaList points_anyWord) fun names => .bind points_ahead fun a => ?_
  refine .ite (.bind points_declaredType fun tokens => .bind (.pure _) ?rest)
    (.bind (.pure none) ?rest)
  intro type
  grind

@[grind ←] theorem points_itemsFrom {α : Type} {item : Parser α} (one : Points real item)
    (fuel : Nat) : Points real (itemsFrom item fuel) := by
  induction fuel with
  | zero => exact points_exhausted
  | succ fuel ih =>
    unfold itemsFrom
    grind

@[grind ←] theorem points_items {α : Type} {item : Parser α} (one : Points real item) :
    Points real (items item) :=
  .bind points_ahead fun _ => points_itemsFrom one _

@[grind ←] theorem points_valueSpecs : Points real valueSpecs :=
  .bind points_ahead fun _ =>
    .ite (points_inside _ (points_items points_valueSpec))
      (.bind points_valueSpec fun _ => .pure _)

@[grind ←] theorem points_funcTokens : Points real funcTokens := by
  unfold funcTokens
  refine .bind (points_optionalToken _) fun receiver => .bind (points_require _ _) fun name => ?_
  refine .bind (points_optionalToken _) fun types => .bind points_typeFuel fun fuel => ?_
  refine .bind (points_typeTokens_signature fuel).2 fun head => ?_
  grind

@[grind ←] theorem points_typeDeclTokens : Points real typeDeclTokens :=
  .bind points_ahead fun _ =>
    .ite (.bind points_token fun _ => .pure _)
      (.bind (points_require _ _) fun _ => .bind (points_optionalToken _) fun _ =>
         .bind points_declaredType fun _ => .pure _)

@[grind ←] theorem points_importTokens : Points real importTokens :=
  .bind points_ahead fun _ =>
    .ite (.bind points_token fun _ => .pure _)
      (.ite (.bind (.pure _) fun _ => .bind (points_require _ _) fun _ => .pure _)
         (.bind points_token fun _ => .bind (.pure _) fun _ => .bind (points_require _ _) fun _ =>
            .pure _))

@[grind ←] theorem points_topDeclaration : Points real topDeclaration := by
  unfold topDeclaration
  refine .bind points_ahead fun a => ?_
  split <;> grind

end GoDecl
