import GoDecl.Grammar.Items
import GoDecl.Proofs.Faults.Types

/-! Faults among trailers, patterns and declarations. A pattern is also refused later, by what it
stands in, and then at a place that it keeps. -/
namespace GoDecl.Grammar

variable {real : Position → Prop} {r : Rules}

@[grind ←] theorem points_exprList (rules : r.Points real) : Points real (exprList r) :=
  points_list (points_value rules)

@[grind ←] theorem points_indexToken (text : String) {place : Position} (there : real place) :
    Points real (indexToken text place) := by
  unfold indexToken
  extract_lets refused digits
  split
  · split
    · exact .ite (points_throw there) (.ite (.pure _) (points_throw there))
    · exact points_throw there
  · exact points_throw there

@[grind ←] theorem points_numberText : Points real numberText :=
  .bind points_literalTokens fun _ => .pure _

@[grind ←] theorem points_member : Points real member := by
  unfold member
  grind

@[grind ←] theorem points_floatSelectors {place : Position} (there : real place) (base : Tree)
    (parts : List String) : Points real (floatSelectors place base parts) := by
  induction parts generalizing base with
  | nil => exact .pure base
  | cons part rest ih =>
    unfold floatSelectors
    grind

@[grind ←] theorem points_selector (rules : r.Points real) (base : Tree) :
    Points real (selector r base) := by
  unfold selector
  grind

@[grind ←] theorem points_pointTrailer (rules : r.Points real) (base : Tree) :
    Points real (pointTrailer r base) := by
  unfold pointTrailer
  grind

@[grind ←] theorem points_trailersFrom (rules : r.Points real) (e : Tree) (fuel : Nat) :
    Points real (trailersFrom r e fuel) := by
  induction fuel generalizing e with
  | zero => exact points_exhausted
  | succ fuel ih =>
    unfold trailersFrom
    grind

@[grind ←] theorem points_trailers (rules : r.Points real) (e : Tree) :
    Points real (trailers r e) :=
  .bind points_ahead fun _ => points_trailersFrom rules _ _

/-- Any pattern but a range without one of its ends. -/
theorem finds_plain {p : PatternRead} (plain : ∀ place, p.form ≠ .range (some place)) :
    Finds real (PatternRead.Within real) (pure p) :=
  .pure fun place same => absurd same (plain place)

theorem finds_alternativePatterns (rules : r.Points real) :
    Finds real (PatternRead.Within real) (alternativePatterns r) := by
  unfold alternativePatterns
  refine .behind (points_optionalPunct _) fun bar => .bind rules.pattern fun first within => ?_
  refine .behind (points_manyWhile _ (by grind)) fun others => ?_
  split
  · exact .pure within
  · exact finds_plain (by grind)

@[grind ←] theorem points_alternativePatterns (rules : r.Points real) :
    Points real (alternativePatterns r) := (finds_alternativePatterns rules).points

@[grind ←] theorem points_alternativeTokens (rules : r.Points real) :
    Points real (alternativeTokens r) :=
  .bind (points_alternativePatterns rules) fun _ => .pure _

@[grind ←] theorem points_oldRangeDots : Points real oldRangeDots :=
  .bind points_ahead fun _ =>
    .ite (points_punct _)
      (.ite (.bind (points_discard (points_punct _)) fun _ => .pure _) (points_punct _))

@[grind ←] theorem points_rangeBound (rules : r.Points real) : Points real (rangeBound r) :=
  .bind points_ahead fun _ =>
    .ite (.pure _)
      (.ite points_literalTokens
         (.ite (.bind (points_anyPath rules _) fun _ => .pure _)
            (.ite
               (.bind (points_word _) fun _ => .bind (points_attributedBlock rules) fun _ =>
                  .pure _)
               (points_refuseFor _))))

theorem finds_rangePattern (rules : r.Points real) (low : Tokens) {place : Position}
    (there : real place) (dots : Tokens) :
    Finds real (PatternRead.Within real) (rangePattern r low place dots) := by
  unfold rangePattern
  refine .behind (points_rangeBound rules) fun high => ?_
  refine .ite (finds_refuse _) (.ite (finds_plain (by simp)) (.pure fun missing same => ?_))
  dsimp only at same
  split at same
  · cases same
    exact there
  · cases same

theorem finds_rangeBehind (rules : r.Points real) (low : Tokens) :
    Finds real (PatternRead.Within real) (rangeBehind r low) := by
  unfold rangeBehind
  refine .get fun c within => .behind points_oldRangeDots fun dots => ?_
  exact finds_rangePattern rules low within.place dots

@[grind ←] theorem points_fieldPattern (rules : r.Points real) : Points real (fieldPattern r) := by
  unfold fieldPattern
  refine .bind points_ahead fun start => .bind (points_optionalWord _) fun boxed => ?_
  refine .bind (points_optionalWord _) fun byRef => .bind (points_optionalWord _) fun mutable => ?_
  grind

@[grind ←] theorem points_fieldPatterns (rules : r.Points real) (fuel : Nat) :
    Points real (fieldPatterns r fuel) := by
  induction fuel with
  | zero => exact points_exhausted
  | succ fuel ih =>
    unfold fieldPatterns
    grind

theorem finds_pathPattern (rules : r.Points real) :
    Finds real (PatternRead.Within real) (pathPattern r) := by
  unfold pathPattern
  refine .behind (points_anyPath rules true) fun p => .behind (points_bangCall? p) fun call? => ?_
  cases call? with
  | some call => exact finds_plain (by simp)
  | none =>
    refine .behind points_ahead fun a => .ite ?_ (.ite ?_ (.ite ?_ ?_))
    · exact .behind (points_group _ (by grind)) fun fields => finds_plain (by simp)
    · exact .behind (points_group _ (by grind)) fun parts => finds_plain (by simp)
    · exact finds_rangeBehind rules p.tokens
    · exact finds_plain (by simp)

@[grind ←] theorem points_namePattern (rules : r.Points real) : Points real (namePattern r) := by
  unfold namePattern
  refine .bind (points_optionalWord _) fun byRef => .bind (points_optionalWord _) fun mutable => ?_
  refine .bind points_ahead fun a => .branch points_anyWord points_name fun bound => ?_
  grind

theorem finds_literalPattern (rules : r.Points real) :
    Finds real (PatternRead.Within real) (literalPattern r) := by
  unfold literalPattern
  refine .behind points_ahead fun a => .behind (points_rangeBound rules) fun low => ?_
  refine .behind points_ahead fun b => ?_
  split
  · exact finds_rangeBehind rules low
  · exact finds_plain (by grind)

theorem finds_openRangePattern (rules : r.Points real) :
    Finds real (PatternRead.Within real) (openRangePattern r) := by
  unfold openRangePattern
  refine .get fun c within => .behind points_ahead fun a => ?_
  split
  · exact .behind (points_punct _) (finds_rangePattern rules [] within.place)
  · exact .behind (points_punct _) (finds_rangePattern rules [] within.place)

@[grind ←] theorem points_referencePattern (rules : r.Points real) :
    Points real (referencePattern r) :=
  .bind (points_punct _) fun _ => .bind (points_optionalWord _) fun _ =>
    .bind (points_pattern rules) fun _ => .pure _

@[grind ←] theorem points_elementPattern (rules : r.Points real) :
    Points real (elementPattern r) := by
  unfold elementPattern
  refine .behind (finds_alternativePatterns rules) fun found within => ?_
  split
  · next place same => exact points_throw (within place same)
  · exact Points.pure _

attribute [local grind ←] Finds.behind finds_plain finds_pathPattern finds_literalPattern
  finds_openRangePattern finds_refuse

theorem finds_patternRule (rules : r.Points real) :
    Finds real (PatternRead.Within real) (patternRule r) := by
  unfold patternRule
  have boxed : Points real (written do
      discard token
      r.pattern) :=
    points_written (.bind (points_discard points_token) fun _ => points_pattern rules)
  refine .behind points_ahead fun a => ?_
  repeat' apply Finds.ite
  all_goals grind [refuseFor]

@[grind ←] theorem points_visibility : Points real visibility := by
  unfold visibility
  refine .bind points_ahead fun a => .ite ?_ (.pure [])
  refine .bind (points_word _) fun keyword => .bind points_ahead fun b => ?_
  split <;> grind

theorem finds_receiver (rules : r.Points real) :
    Finds real (fun found => real found.2) (receiver r) := by
  unfold receiver
  refine .behind (points_optionalPunct _) fun mark => .behind points_ahead fun a => ?_
  refine .branch points_lifetime (.pure []) fun life => ?_
  refine .behind (points_optionalWord _) fun mutable => .get fun c within => ?_
  refine .behind (points_word _) fun self => .behind points_ahead fun b => .ite ?_ ?_
  · refine .behind (points_punct _) fun colon => .behind (points_typeTokens rules) fun type => ?_
    exact .pure within.place
  · exact .pure within.place

@[grind ←] theorem points_patternParameter (rules : r.Points real) :
    Points real (patternParameter r) :=
  .bind points_ahead fun _ =>
    .ite (.bind (points_typeTokens rules) fun _ => .pure _)
      (.bind (points_pattern rules) fun _ => .bind (points_punct _) fun _ =>
         .bind points_ahead fun _ =>
           .ite (.bind (points_punct _) fun _ => .pure _)
             (.bind (points_typeTokens rules) fun _ => .pure _))

@[grind ←] theorem points_parametersFrom (rules : r.Points real) (count : Nat) (received : Bool)
    (fuel : Nat) :
    Points real (parametersFrom r count received fuel) := by
  induction fuel generalizing count received with
  | zero => exact points_exhausted
  | succ fuel ih =>
    unfold parametersFrom
    refine .bind points_atEnd fun done => .ite (.pure []) ?_
    refine .bind (points_outerAttributes rules) fun attributes => .bind points_ahead fun a => ?_
    refine .ite (by grind) (.behind (finds_attempt? (finds_receiver rules)) fun found? first => ?_)
    rcases found? with _ | ⟨found, place⟩
    · refine .bind (points_patternParameter rules) fun p => ?_
      grind
    · have there : real place := first _ rfl
      refine .ite (points_throw there) (.ite (points_throw there) ?_)
      grind

@[grind ←] theorem points_signature? (rules : r.Points real) (safe : Bool) :
    Points real (signature? r safe) := by
  unfold signature?
  refine .bind (points_optionalWord _) fun constant => .bind (points_optionalWord _) fun async => ?_
  refine .bind (points_optionalWord _) fun unsafety => .bind points_ahead fun a => ?_
  refine .when (points_discard points_token) fun _ => .bind points_optionalAbi fun convention => ?_
  refine .bind (points_word _) fun keyword => .bind points_name fun text => ?_
  refine .bind (points_typeParameters rules) fun types => ?_
  grind

@[grind ←] theorem points_signature (rules : r.Points real) : Points real (signature r) :=
  .bind (points_signature? rules _) fun _ => .pure _

@[grind ←] theorem points_namedField (rules : r.Points real) {inner : Parser Tokens}
    (one : Points real inner) :
    Points real (namedField r inner) := by
  unfold namedField
  refine .bind (points_outerAttributes rules) fun attributes => ?_
  refine .bind points_visibility fun vis => ?_
  refine .bind points_ahead fun a => .branch points_anyWord points_name fun text => ?_
  refine .bind (points_punct _) fun colon => .bind points_ahead fun b => ?_
  exact .branch (points_written (by grind)) (points_typeTokens rules) fun type => .pure _

@[grind ←] theorem points_fieldsToDepth (rules : r.Points real) (depth : Nat) :
    Points real (fieldsToDepth r depth) := by
  induction depth with
  | zero => exact points_exhausted
  | succ depth ih =>
    unfold fieldsToDepth
    grind

@[grind ←] theorem points_namedFields (rules : r.Points real) : Points real (namedFields r) :=
  .bind points_ahead fun _ => points_fieldsToDepth rules _

@[grind ←] theorem points_positionalFields (rules : r.Points real) :
    Points real (positionalFields r) :=
  points_group _
    (points_list
       (.bind (points_outerAttributes rules) fun _ => .bind points_visibility fun _ =>
          .bind (points_typeTokens rules) fun _ => .pure _))

@[grind ←] theorem points_structBody (rules : r.Points real) : Points real (structBody r) := by
  unfold structBody
  grind

@[grind ←] theorem points_variant (rules : r.Points real) : Points real (variant r) := by
  unfold variant
  refine .bind (points_outerAttributes rules) fun attributes => ?_
  refine .bind (points_discard points_visibility) fun _ => .bind points_name fun text => ?_
  grind

@[grind ←] theorem points_structItem (rules : r.Points real) : Points real (structItem r) :=
  .bind (points_word _) fun _ => .bind points_name fun _ =>
    .bind (points_typeParameters rules) fun _ => .bind (points_structBody rules) fun _ => .pure _

@[grind ←] theorem points_enumItem (rules : r.Points real) : Points real (enumItem r) :=
  .bind (points_word _) fun _ => .bind points_name fun _ =>
    .bind (points_typeParameters rules) fun _ => .bind (points_whereClause rules) fun _ =>
      .bind (points_group _ (points_list (points_variant rules))) fun _ => .pure _

@[grind ←] theorem points_unionItem (rules : r.Points real) : Points real (unionItem r) :=
  .bind (points_word _) fun _ => .bind points_name fun _ =>
    .bind (points_typeParameters rules) fun _ => .bind (points_whereClause rules) fun _ =>
      .bind (points_namedFields rules) fun _ => .pure _

@[grind ←] theorem points_formOr (start : Tokens) (form : Option Tokens) :
    Points real (formOr start form) := by
  unfold formOr
  cases form with
  | some tokens => exact .pure _
  | none => exact points_since start

@[grind ←] theorem points_bangItem (named : Bool) : Points real (bangItem named) := by
  unfold bangItem
  refine .bind points_namePath fun path => .bind (points_punct _) fun bang => ?_
  refine .bind points_ahead fun a => .ite (.bind points_token fun first => ?_) ?_
  all_goals
    refine .bind (.pure _) fun label => .bind points_anyGroup fun body => ?_
    split
    · exact .pure _
    · exact .bind (points_punct _) fun _ => .pure _

@[grind ←] theorem points_boundsUntil (stop : Tokens → Bool) {item : Parser Tokens}
    (one : Points real item) (fuel : Nat) :
    Points real (boundsUntil stop item fuel) := by
  induction fuel with
  | zero => exact points_exhausted
  | succ fuel ih =>
    unfold boundsUntil
    grind

@[grind ←] theorem points_typeItem (rules : r.Points real) (place : ConditionPlace) :
    Points real (typeItem r place) := by
  unfold typeItem
  refine .bind (points_word _) fun keyword => .bind points_name fun text => ?_
  refine .bind (points_typeParameters rules) fun types => ?_
  refine .bind (points_optionalPunct _) fun colon => ?_
  refine .ite (.bind (.pure []) ?rest)
    (.bind points_ahead fun a => .bind (points_boundsUntil _ (points_parameterBound rules) _) ?rest)
  refine fun bounds => .branch (.pure none) (points_whereClause? rules) fun before? => ?_
  grind

@[grind ←] theorem points_constName : Points real constName :=
  .bind points_ahead fun _ => .ite points_token (points_refuseFor _)

@[grind ←] theorem points_constItem (rules : r.Points real) : Points real (constItem r) := by
  unfold constItem
  refine .bind points_constName fun text => .bind points_ahead fun a => ?_
  refine .bind (points_typeParameters rules) fun types => .bind (points_punct _) fun colon => ?_
  refine .bind (points_typeTokens rules) fun type => .bind (points_optionalPunct _) fun eq => ?_
  grind

@[grind ←] theorem points_functionBody (rules : r.Points real) : Points real (functionBody r) :=
  points_attributedBlock rules

@[grind ←] theorem points_traitMember (rules : r.Points real) : Points real (traitMember r) := by
  unfold traitMember
  refine .bind points_ahead fun start => .bind (points_outerAttributes rules) fun attributes => ?_
  refine .bind points_visibility fun vis => .bind (points_optionalWord _) fun default => ?_
  refine .bind points_ahead fun a => ?_
  grind

@[grind ←] theorem points_implMember (rules : r.Points real) : Points real (implMember r) := by
  unfold implMember
  refine .bind points_ahead fun start => .bind (points_outerAttributes rules) fun attributes => ?_
  refine .bind points_visibility fun vis => .bind points_ahead fun a => ?_
  refine .branch (points_word _) (.pure []) fun default => .bind points_ahead fun b => ?_
  grind

@[grind ←] theorem points_foreignMember (rules : r.Points real) :
    Points real (foreignMember r) := by
  unfold foreignMember
  refine .bind points_ahead fun start => .bind (points_outerAttributes rules) fun attributes => ?_
  refine .bind points_visibility fun vis => .bind points_ahead fun a => ?_
  refine .ite (by grind) (.ite ?static (by grind))
  refine .ite (.bind (.pure []) ?rest) (.bind points_token fun t => .bind (.pure [t]) ?rest)
  intro safety
  refine .bind (points_word _) fun keyword => .bind (points_optionalWord _) fun mutable => ?_
  refine .bind points_name fun text => .bind (points_punct _) fun colon => ?_
  grind

@[grind ←] theorem points_members (rules : r.Points real) {member : Parser Tokens}
    (one : Points real member) :
    Points real (members r member) :=
  points_group _
    (.bind (points_innerAttributes rules) fun _ => .bind (points_untilEnd one) fun _ => .pure _)

@[grind ←] theorem points_useParts (rules : r.Points real) (rooted formed : Bool) (fuel : Nat) :
    Points real (useParts r rooted formed fuel) := by
  induction fuel generalizing formed with
  | zero => exact points_exhausted
  | succ fuel ih =>
    unfold useParts
    grind

@[grind ←] theorem points_useTreeRule (rules : r.Points real) (rooted : Bool) :
    Points real (useTreeRule r rooted) := by
  unfold useTreeRule
  grind

@[grind ←] theorem points_useItem (rules : r.Points real) : Points real (useItem r) :=
  .bind (points_word _) fun _ => .bind (points_optionalPunct _) fun _ =>
    .bind (rules.useTree _) fun _ => .bind (points_punct _) fun _ => .pure _

@[grind ←] theorem points_externCrate : Points real externCrate := by
  unfold externCrate
  refine .bind (points_word _) fun first => .bind (points_word _) fun second => ?_
  refine .bind points_ahead fun a => .branch points_anyWord points_name fun text => ?_
  grind

@[grind ←] theorem points_foreignBlock (rules : r.Points real) (vis : Tokens) {place : Position}
    (there : real place) :
    Points real (foreignBlock r vis place) := by
  unfold foreignBlock
  grind

@[grind ←] theorem points_externItem (rules : r.Points real) (vis : Tokens) {place : Position}
    (there : real place) :
    Points real (externItem r vis place) := by
  unfold externItem
  grind

@[grind ←] theorem points_staticItem (rules : r.Points real) : Points real (staticItem r) := by
  unfold staticItem
  refine .bind (points_word _) fun keyword => .bind (points_optionalWord _) fun mutable => ?_
  refine .bind points_name fun text => .bind points_ahead fun a => .ite ?_ ?_
  all_goals grind

@[grind ←] theorem points_moduleItem (rules : r.Points real) : Points real (moduleItem r) := by
  unfold moduleItem
  refine .bind (points_optionalWord _) fun safety => .bind (points_word _) fun keyword => ?_
  refine .bind points_ahead fun a => .branch points_anyWord points_name fun text => ?_
  grind

@[grind ←] theorem points_traitBody (rules : r.Points real) : Points real (traitBody r) := by
  unfold traitBody
  grind

@[grind ←] theorem points_traitItem (rules : r.Points real) : Points real (traitItem r) := by
  unfold traitItem
  refine .bind (points_optionalWord _) fun safety => .bind (points_optionalWord _) fun auto => ?_
  refine .bind (points_word _) fun keyword => .bind points_name fun text => ?_
  refine .bind (points_typeParameters rules) fun types => .bind points_ahead fun a => ?_
  grind

@[grind ←] theorem points_implItem (rules : r.Points real) : Points real (implItem r) := by
  unfold implItem
  refine .bind (points_optionalWord _) fun default => .bind (points_optionalWord _) fun safety => ?_
  refine .bind (points_word _) fun keyword => .bind points_ahead fun a => ?_
  refine .branch (points_typeParameters rules) (.pure []) fun types => ?_
  refine .bind points_ahead fun b => ?_
  refine .ite (.bind (points_discard (points_optionalPunct _)) fun _ =>
    .bind (points_discard (points_word _)) ?rest) ((show ∀ u : Unit, Points real _ from ?rest) ())
  refine fun _ => .bind points_ahead fun d => .get fun c within => ?_
  have here := within.place
  refine .branch (points_punct _) (.pure []) fun negative => ?_
  refine .bind (rules.type true) fun first => .bind points_ahead fun e => ?_
  grind

@[grind ←] theorem points_macroItem : Points real macroItem := by
  unfold macroItem
  grind

@[grind ←] theorem points_functionItem (rules : r.Points real) : Points real (functionItem r) :=
  .bind (points_signature rules) fun _ => .bind points_ahead fun _ =>
    .ite (.bind (points_discard (points_punct _)) fun _ => .pure _)
      (.bind (points_functionBody rules) fun _ => .pure _)

@[grind ←] theorem points_itemRule (rules : r.Points real) (start attributes : Tokens) :
    Points real (itemRule r start attributes) := by
  unfold itemRule
  refine .get fun c within => .bind points_visibility fun vis => ?_
  have here := within.place
  refine .bind points_ahead fun a => ?_
  repeat' apply Points.ite
  all_goals grind

end GoDecl.Grammar
