import GoDecl.Grammar.Types
import GoDecl.Proofs.Faults.Basic

/-! Faults among attributes, paths, type parameters and types. A rule calls the others through the
record of rules, so for each reader the rules are taken to point at real places. A proof has the
shape of its reader; in the longer ones the parts without a choice of their own are found by the
tagged lemmas. -/
namespace GoDecl.Grammar

/-- The place that a pattern may still be refused at. -/
def PatternRead.Within (real : Position → Prop) (p : PatternRead) : Prop :=
  ∀ place, p.form = .range (some place) → real place

/-- All rules point at real places. -/
structure Rules.Points (real : Position → Prop) (r : Rules) : Prop where
  expr : ∀ structs, Grammar.Points real (r.expr structs)
  unary : ∀ structs, Grammar.Points real (r.unary structs)
  operators : ∀ left structs base, Grammar.Points real (r.operators left structs base)
  operand : ∀ structs above, Grammar.Points real (r.operand structs above)
  operandTail : ∀ right structs above, Grammar.Points real (r.operandTail right structs above)
  type : ∀ plus, Grammar.Points real (r.type plus)
  bound : ∀ captures constants, Grammar.Points real (r.bound captures constants)
  pattern : Finds real (PatternRead.Within real) r.pattern
  statementExpr : Grammar.Points real r.statementExpr
  statements : Grammar.Points real r.statements
  item : ∀ start attributes, Grammar.Points real (r.item start attributes)
  useTree : ∀ rooted, Grammar.Points real (r.useTree rooted)

attribute [grind ←] Rules.Points.expr Rules.Points.unary Rules.Points.operators
  Rules.Points.operand Rules.Points.operandTail Rules.Points.type Rules.Points.bound
  Rules.Points.statementExpr Rules.Points.statements Rules.Points.item Rules.Points.useTree

attribute [grind →] Cursor.Within.place

variable {real : Position → Prop} {r : Rules}

@[grind ←] theorem points_pattern (rules : r.Points real) : Points real r.pattern :=
  rules.pattern.points

@[grind ←] theorem points_value (rules : r.Points real) : Points real r.value :=
  .bind (rules.expr _) fun _ => .pure _

@[grind ←] theorem points_typeTokens (rules : r.Points real) : Points real r.typeTokens :=
  .bind (rules.type _) fun _ => .pure _

@[grind ←] theorem points_literalTokens : Points real literalTokens := by
  unfold literalTokens
  refine .bind points_token fun first => ?_
  split
  · exact .bind points_token fun _ => .pure _
  · exact .pure _

@[grind ←] theorem points_namesFrom (fuel : Nat) : Points real (namePath.namesFrom fuel) := by
  induction fuel with
  | zero => exact points_exhausted
  | succ fuel ih =>
    unfold namePath.namesFrom
    grind

@[grind ←] theorem points_namePath : Points real namePath :=
  .bind (points_optionalPunct _) fun _ => .bind points_ahead fun _ =>
    .bind (points_namesFrom _) fun _ => .pure _

@[grind ←] theorem points_attributeValue (rules : r.Points real) :
    Points real (attributeValue r) :=
  .bind points_ahead fun _ => .ite (points_refuse _) (points_value rules)

@[grind ←] theorem points_attributeBody (rules : r.Points real) :
    Points real (attributeBody r) := by
  unfold attributeBody
  refine .bind points_ahead fun a => .branch (points_word _) points_namePath fun front => ?_
  refine .bind points_ahead fun b => ?_
  split
  · exact .bind points_token fun _ => .pure _
  · grind

@[grind ←] theorem points_outerAttribute (rules : r.Points real) :
    Points real (outerAttribute r) :=
  .bind (points_punct _) fun _ => .bind (points_group _ (points_attributeBody rules)) fun _ =>
    .pure _

@[grind ←] theorem points_outerAttributes (rules : r.Points real) :
    Points real (outerAttributes r) :=
  points_manyWhile _ (points_outerAttribute rules)

@[grind ←] theorem points_innerAttribute (rules : r.Points real) :
    Points real (innerAttribute r) :=
  .bind (points_punct _) fun _ => .bind (points_punct _) fun _ =>
    .bind (points_group _ (points_attributeBody rules)) fun _ => .pure _

@[grind ←] theorem points_innerAttributes (rules : r.Points real) :
    Points real (innerAttributes r) :=
  points_manyWhile _ (points_innerAttribute rules)

@[grind ←] theorem points_block (rules : r.Points real) : Points real (block r) :=
  points_group _ rules.statements

@[grind ←] theorem points_attributedBlock (rules : r.Points real) :
    Points real (attributedBlock r) :=
  points_group _
    (.bind (points_innerAttributes rules) fun _ => .bind rules.statements fun _ => .pure _)

@[grind ←] theorem points_constArgument (rules : r.Points real) :
    Points real (constArgument r) :=
  .bind points_ahead fun _ =>
    .ite points_literalTokens
      (.ite (.bind points_token fun _ => .pure _)
         (.ite (points_attributedBlock rules)
            (.ite (points_refusePlainly _) (points_refusePlainly _))))

@[grind ←] theorem points_plusItems (stop : Tokens → Bool) {item : Parser Tokens}
    (one : Points real item) (fuel : Nat) :
    Points real (plusItems stop item fuel) := by
  induction fuel with
  | zero => exact points_exhausted
  | succ fuel ih =>
    unfold plusItems
    grind

@[grind ←] theorem points_plusList (stop : Tokens → Bool) {item : Parser Tokens}
    (one : Points real item) :
    Points real (plusList stop item) :=
  .bind points_ahead fun _ => points_plusItems _ one _

@[grind ←] theorem points_parameterBound (rules : r.Points real) :
    Points real (parameterBound r) :=
  .bind (rules.bound _ _) fun _ => .pure _

@[grind ←] theorem points_argument (rules : r.Points real) : Points real (argument r) := by
  unfold argument
  refine .bind points_ahead fun a => .ite (by grind) (.ite (by grind) ?_)
  refine .bind (rules.type true) fun type => ?_
  split
  · grind
  · exact .pure _

@[grind ←] theorem points_typeArguments (rules : r.Points real) :
    Points real (typeArguments r) :=
  .bind (points_optionalPunct _) fun _ => .bind (points_punct _) fun _ =>
    .bind (points_listUntil _ (points_argument rules)) fun _ => .bind (points_punct _) fun _ =>
      .pure _

@[grind ←] theorem points_segment (rules : r.Points real) (inExpr : Bool) :
    Points real (segment r inExpr) :=
  .bind points_ahead fun _ =>
    .ite (.bind points_anyWord fun _ => .pure _)
      (.branch points_anyWord points_name fun _ => .bind points_ahead fun _ =>
         .ite (.bind (points_typeArguments rules) fun _ => .pure _) (.pure _))

@[grind ←] theorem points_pathRest (rules : r.Points real) (inExpr : Bool)
    (goesOn : Tokens → Bool) (soFar : PathRead) (fuel : Nat) :
    Points real (pathRest r inExpr goesOn soFar fuel) := by
  induction fuel generalizing soFar with
  | zero => exact points_exhausted
  | succ fuel ih =>
    unfold pathRest
    grind

@[grind ←] theorem points_plainPath (rules : r.Points real) (inExpr : Bool) :
    Points real (plainPath r inExpr) := by
  unfold plainPath
  grind

@[grind ←] theorem points_anyPath (rules : r.Points real) (inExpr : Bool) :
    Points real (anyPath r inExpr) := by
  unfold anyPath
  refine .bind points_ahead fun a => .ite ?_ (points_plainPath rules inExpr)
  refine .bind (points_punct _) fun low => .bind (points_typeTokens rules) fun self => ?_
  refine .bind points_ahead fun b => ?_
  grind

@[grind ←] theorem points_bangCall? (p : PathRead) : Points real (bangCall? p) :=
  .bind points_ahead fun _ =>
    .ite (.bind (points_punct _) fun _ => .bind points_anyGroup fun _ => .pure _) (.pure _)

@[grind ←] theorem points_optionalBounds (stop : Tokens → Bool) {item : Parser Tokens}
    (one : Points real item) :
    Points real (optionalBounds stop item) :=
  .bind points_ahead fun _ =>
    .ite (.bind (points_punct _) fun _ => .bind (points_plusList _ one) fun _ => .pure _)
      (.pure _)

@[grind ←] theorem points_lifetimeParameter : Points real lifetimeParameter :=
  .bind points_lifetime fun _ => .bind (points_optionalBounds _ points_lifetime) fun _ => .pure _

@[grind ←] theorem points_typeParameter (rules : r.Points real) :
    Points real (typeParameter r) :=
  .bind points_name fun _ =>
    .bind (points_optionalBounds _ (points_parameterBound rules)) fun _ =>
      .bind points_ahead fun _ =>
        .ite (.bind (points_punct _) fun _ => .bind (points_typeTokens rules) fun _ => .pure _)
          (.pure _)

@[grind ←] theorem points_constParameter (rules : r.Points real) :
    Points real (constParameter r) :=
  .bind (points_word _) fun _ => .bind points_name fun _ => .bind (points_punct _) fun _ =>
    .bind (points_typeTokens rules) fun _ => .bind points_ahead fun _ =>
      .ite (.bind (points_punct _) fun _ => .bind (points_constArgument rules) fun _ => .pure _)
        (.pure _)

@[grind ←] theorem points_parameter (rules : r.Points real) {otherwise : Parser Tokens}
    (one : Points real otherwise) :
    Points real (parameter r otherwise) :=
  .bind (points_outerAttributes rules) fun _ => .bind points_ahead fun _ =>
    .ite (.bind points_lifetimeParameter fun _ => .pure _)
      (.ite (.bind (points_typeParameter rules) fun _ => .pure _)
         (.branch (points_constParameter rules) one fun _ => .pure _))

@[grind ←] theorem points_boundLifetimes (rules : r.Points real) :
    Points real (boundLifetimes r) :=
  .bind points_ahead fun _ =>
    .ite
      (.bind (points_word _) fun _ => .bind (points_punct _) fun _ =>
         .bind (points_listUntil _
              (.bind (points_parameter rules (points_refuseFor _)) fun _ => .pure _)) fun _ =>
           .bind (points_punct _) fun _ => .pure _)
      (.pure _)

@[grind ←] theorem points_typeParameters (rules : r.Points real) :
    Points real (typeParameters r) :=
  .bind points_ahead fun _ =>
    .ite
      (.bind (points_punct _) fun _ =>
         .bind (points_listUntil _
              (points_parameter rules
                 (.bind points_ahead fun _ =>
                    .ite (.bind points_token fun _ => .pure _) (points_refuseFor _)))) fun _ =>
           .bind (points_punct _) fun _ => .pure _)
      (.pure _)

@[grind ←] theorem points_predicate (rules : r.Points real) : Points real (predicate r) := by
  unfold predicate
  grind

@[grind ←] theorem points_predicates (rules : r.Points real) (fuel : Nat) :
    Points real (predicates r fuel) := by
  induction fuel with
  | zero => exact points_exhausted
  | succ fuel ih =>
    unfold predicates
    grind

@[grind ←] theorem points_whereClause? (rules : r.Points real) : Points real (whereClause? r) :=
  .bind points_ahead fun _ =>
    .ite
      (.bind (points_word _) fun _ => .bind points_ahead fun _ =>
         .ite (points_refuse _)
           (.bind points_ahead fun _ => .bind (points_predicates rules _) fun _ => .pure _))
      (.pure _)

@[grind ←] theorem points_whereClause (rules : r.Points real) : Points real (whereClause r) :=
  .bind (points_whereClause? rules) fun _ => .pure _

@[grind ←] theorem points_callTypes (rules : r.Points real) : Points real (callTypes r) :=
  .bind (points_group _ (points_list (points_typeTokens rules))) fun _ =>
    .bind points_ahead fun _ =>
      .ite (.bind (points_punct _) fun _ => .bind (rules.type _) fun _ => .pure _) (.pure _)

@[grind ←] theorem points_traitBound (rules : r.Points real) (constants : Bool) :
    Points real (traitBound r constants) := by
  unfold traitBound
  refine .bind (points_boundLifetimes rules) fun outer => .get fun c within => ?_
  have here := within.place
  refine .bind points_ahead fun a => .when (by grind) fun _ => .when (by grind) fun _ => ?_
  refine .when (points_throw here) fun _ => .when (points_throw here) fun _ => ?_
  refine .get fun d within => .bind (points_optionalPunct _) fun maybe => ?_
  have there := within.place
  refine .branch (points_boundLifetimes rules) (.pure outer) fun lifetimes => ?_
  grind

@[grind ←] theorem points_captured (fuel : Nat) : Points real (captured fuel) := by
  induction fuel with
  | zero => exact points_exhausted
  | succ fuel ih =>
    unfold captured
    grind

@[grind ←] theorem points_captureBound : Points real captureBound :=
  .bind (points_word _) fun _ => .bind (points_punct _) fun _ => .bind points_ahead fun _ =>
    .bind (points_captured _) fun _ => .bind (points_punct _) fun _ => .pure _

@[grind ←] theorem points_boundRule (rules : r.Points real) (captures constants : Bool) :
    Points real (boundRule r captures constants) := by
  unfold boundRule
  grind

@[grind ←] theorem points_boundsFrom (rules : r.Points real) (plus captures constants : Bool)
    (fuel : Nat) :
    Points real (boundsFrom r plus captures constants fuel) := by
  induction fuel with
  | zero => exact points_exhausted
  | succ fuel ih =>
    unfold boundsFrom
    grind

@[grind ←] theorem points_objectBounds (rules : r.Points real) (plus : Bool) {place : Position}
    (there : real place) :
    Points real (objectBounds r plus place) := by
  unfold objectBounds
  grind

@[grind ←] theorem points_moreBounds (rules : r.Points real) (lonePlus : Bool)
    (soFar : BoundsRead) (fuel : Nat) :
    Points real (moreBounds r lonePlus soFar fuel) := by
  induction fuel generalizing soFar with
  | zero => exact points_exhausted
  | succ fuel ih =>
    unfold moreBounds
    grind

@[grind ←] theorem points_boundType (rules : r.Points real) (lonePlus : Bool) (first : BoundRead) :
    Points real (boundType r lonePlus first) :=
  .bind points_ahead fun _ => .bind (points_moreBounds rules _ _ _) fun _ =>
    .ite (.pure _) (.pure _)

@[grind ←] theorem points_parenTypes (rules : r.Points real) : Points real (parenTypes r) := by
  unfold parenTypes
  grind

@[grind ←] theorem points_parenType (rules : r.Points real) (plus : Bool) :
    Points real (parenType r plus) := by
  unfold parenType
  refine points_insideThen _ (points_parenTypes rules) fun found => ?_
  cases found with
  | done tokens => exact .pure _
  | maybe b => exact points_boundType rules _ _
  | one first =>
    refine .bind points_ahead fun a => .ite ?_ (.pure _)
    split
    · exact points_boundType rules _ _
    · exact .pure _

@[grind ←] theorem points_functionParameter (rules : r.Points real) (first : Bool) :
    Points real (functionParameter r first) := by
  unfold functionParameter
  refine .bind points_ahead fun start => .when (by grind) fun _ => .bind points_ahead fun a => ?_
  grind

@[grind ←] theorem points_functionParameters (rules : r.Points real) (first : Bool) (fuel : Nat) :
    Points real (functionParameters r first fuel) := by
  induction fuel generalizing first with
  | zero => exact points_exhausted
  | succ fuel ih =>
    unfold functionParameters
    refine .bind points_atEnd fun done => ?_
    refine .ite (.pure []) (.bind (points_outerAttributes rules) fun attributes => ?_)
    refine .bind points_ahead fun a => .ite ?_ ?_
    all_goals grind

@[grind ←] theorem points_abi : Points real abi :=
  .bind (points_word _) fun _ => .bind points_ahead fun _ =>
    .ite (.bind points_token fun _ => .pure _) (.pure _)

@[grind ←] theorem points_optionalAbi : Points real optionalAbi :=
  .bind points_ahead fun _ => .ite points_abi (.pure _)

@[grind ←] theorem points_resultType (rules : r.Points real) (plus : Bool) :
    Points real (resultType r plus) :=
  .bind points_ahead fun _ =>
    .ite (.bind (points_punct _) fun _ => .bind (rules.type _) fun _ => .pure _) (.pure _)

@[grind ←] theorem points_functionType (rules : r.Points real) (lifetimes : Tokens) :
    Points real (functionType r lifetimes) := by
  unfold functionType
  grind

@[grind ←] theorem points_pathType (rules : r.Points real) (plus : Bool) (lifetimes : Tokens) :
    Points real (pathType r plus lifetimes) := by
  unfold pathType
  refine .bind (points_anyPath rules _) fun p => .ite (.pure _) ?_
  refine .bind (points_bangCall? p) fun call? => ?_
  cases call? with
  | some call => exact .pure _
  | none => grind

@[grind ←] theorem points_bracketType (rules : r.Points real) : Points real (bracketType r) :=
  points_group _
    (.bind (points_typeTokens rules) fun _ => .bind points_ahead fun _ =>
       .ite (.bind (points_punct _) fun _ => .bind (points_value rules) fun _ => .pure _)
         (.pure _))

@[grind ←] theorem points_pointerType (rules : r.Points real) : Points real (pointerType r) :=
  .bind (points_punct _) fun _ => .bind points_ahead fun _ =>
    .ite (.bind points_token fun _ => .bind (rules.type _) fun _ => .pure _) (points_refuseFor _)

@[grind ←] theorem points_referenceType (rules : r.Points real) :
    Points real (referenceType r) :=
  .bind (points_punct _) fun _ => .bind points_ahead fun _ =>
    .branch points_lifetime (.pure _) fun _ => .bind (points_optionalWord _) fun _ =>
      .bind (rules.type _) fun _ => .pure _

@[grind ←] theorem points_dynType (rules : r.Points real) (plus : Bool) :
    Points real (dynType r plus) := by
  unfold dynType
  grind

@[grind ←] theorem points_implType (rules : r.Points real) (plus : Bool) :
    Points real (implType r plus) := by
  unfold implType
  grind

@[grind ←] theorem points_builtin : Points real builtin :=
  points_written
    (.bind (points_discard (points_word _)) fun _ =>
       .bind (points_discard (points_punct _)) fun _ =>
         .bind (points_discard points_name) fun _ =>
           points_inside _ (points_untilEnd (.bind points_token fun _ => .pure _)))

@[grind ←] theorem points_typeRule (rules : r.Points real) (plus : Bool) :
    Points real (typeRule r plus) := by
  unfold typeRule
  refine .bind points_ahead fun start => .bind (points_boundLifetimes rules) fun lifetimes => ?_
  refine .bind points_ahead fun a => ?_
  repeat' apply Points.ite
  all_goals grind

end GoDecl.Grammar
