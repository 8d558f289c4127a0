import GoDecl.Proofs.Rendering

/-! Declarations that are written down are read back as they were. Whatever can follow an item ends
all of its parts, so that each part takes just its own tokens. -/
namespace GoDecl

open Grammar

section Follow

variable {rest : Tokens} (ends : endsItem rest)

include ends

theorem endsItem_cases : rest = [] ∨ (∃ w p more, w ∈ declarationWords ∧ rest = .word w p :: more) ∨
    ∃ joint p more, rest = .punct ';' joint p :: more := by
  cases rest with
  | nil => exact .inl rfl
  | cons t more =>
    cases t with
    | word w p => exact .inr (.inl ⟨w, p, more, by simpa [endsItem] using ends, rfl⟩)
    | punct c joint p =>
      have mark : c = ';' := by simpa [endsItem] using ends
      exact .inr (.inr ⟨joint, p, more, by rw [mark]⟩)
    | literal | group => contradiction

theorem endsExpr_of_endsItem : endsExpr rest := by
  rcases endsItem_cases ends with rfl | ⟨w, p, more, opens, rfl⟩ | ⟨joint, p, more, rfl⟩
  · rfl
  · simp only [endsExpr, decide_eq_true_eq]
    rintro rfl
    revert opens
    decide
  · rfl

theorem endsType_of_endsItem : endsType rest := by
  rcases endsItem_cases ends with rfl | ⟨w, p, more, opens, rfl⟩ | ⟨joint, p, more, rfl⟩
  · rfl
  · simp [endsType, startsType, seesGroup, seesArrow, seesDeclarationWord, opens]
  · simp [endsType, startsType, seesGroup, seesArrow, seesAnyWord]

theorem noMark_of_endsItem {mark : Char} (other : mark ≠ ';') : seesPunct [mark] rest = false := by
  rcases endsItem_cases ends with rfl | ⟨w, p, more, opens, rfl⟩ | ⟨joint, p, more, rfl⟩
  · simp
  · simp
  · simp [other]

end Follow

section Items

variable {α : Type} {item : Parser α} {spell : α → Tokens → Prop} {follow apart : Tokens → Prop}
  (takes : Takes item spell id follow)
  (opens : ∀ a tokens, spell a tokens → ∃ w p more, tokens = .word w p :: more)
  (follows : ∀ items tokens, Series spell apart items tokens → apart tokens → follow tokens)

include takes opens follows

theorem itemsFrom_series {items : List α} {tokens : Tokens}
    (series : Series spell apart items tokens) {fuel : Nat} (enough : tokens.length < fuel)
    (c : Cursor) : itemsFrom item fuel (c.at tokens) = .ok (items, c.at []) := by
  induction series generalizing fuel with
  | nil =>
    obtain ⟨fuel, rfl⟩ := Nat.exists_eq_succ_of_ne_zero (Nat.ne_of_gt enough)
    rfl
  | semicolon joint p others ih =>
    obtain ⟨fuel, rfl⟩ := Nat.exists_eq_succ_of_ne_zero (Nat.ne_zero_of_lt enough)
    rw [itemsFrom_semicolon]
    exact ih (Nat.lt_of_succ_lt_succ enough)
  | @cons a items tokens more first parted others ih =>
    obtain ⟨fuel, rfl⟩ := Nat.exists_eq_succ_of_ne_zero (Nat.ne_zero_of_lt enough)
    have taken := takes a tokens first c more (follows _ _ others parted)
    obtain ⟨w, p, front, rfl⟩ := opens a tokens first
    have later := ih (show more.length < fuel by simp at enough; omega)
    rw [List.cons_append, itemsFrom_word, ← List.cons_append,
      bind_of_ok taken, bind_of_ok later]
    rfl

theorem items_series {items : List α} {tokens : Tokens} (series : Series spell apart items tokens)
    (c : Cursor) : GoDecl.items item (c.at tokens) = .ok (items, c.at []) := by
  rw [GoDecl.items, ahead_at_bind]
  exact itemsFrom_series takes opens follows series (Nat.lt_succ_self _) c

end Items

theorem TypeExpr.form_of_sound {tokens : Tokens} (sound : (TypeExpr.ofTokens tokens).Sound) :
    TypeForm tokens := by
  unfold TypeExpr.ofTokens at sound
  split at sound
  · exact .named sound _ .absent .absent
  · exact sound.1

theorem seesWord_append {w : String} {a : Tokens} (seen : seesWord w a = true) (rest : Tokens) :
    seesWord w (a ++ rest) = true := by
  cases a with
  | nil => contradiction
  | cons t more => cases t <;> exact seen

section Specs

variable {rest : Tokens} (c : Cursor)

theorem initialisers_spelled {values : List Expr} {tokens : Tokens}
    (spelled : Initialisers values tokens) (grouped : ∀ e ∈ values, e.Grouped)
    (ends : endsItem rest) : initialisers (c.at (tokens ++ rest)) = .ok (values, c.at rest) := by
  cases spelled with
  | absent =>
    have noEquals := noMark_of_endsItem ends (show '=' ≠ ';' by decide)
    simp only [initialisers, List.nil_append, ahead_at_bind, noEquals]
    rfl
  | @present joint p _ tokens valued =>
    have equals : seesPunct ['='] (.punct '=' joint p :: (tokens ++ rest)) = true := by
      cases joint <;> rfl
    have taken := commaList_enumerated Expr.expression_takes (fun _ _ _ => rfl)
      (valued.imp fun e member _ spelled => ⟨grouped e member, spelled⟩) rest
      (endsExpr_of_endsItem ends) (noMark_of_endsItem ends (by decide)) c
    simp only [initialisers, List.cons_append, ahead_at_bind, equals, if_true, discard_token_bind]
    simpa using taken

theorem optionalType_spelled {type : Option TypeExpr} {tokens : Tokens}
    (spelled : OptionalType type tokens) (sound : ∀ t ∈ type, t.Sound) (ends : endsType rest)
    (noFunc : type = none → seesWord "func" rest = false) :
    optionalType (c.at (tokens ++ rest)) = .ok (type, c.at rest) := by
  cases spelled with
  | absent =>
    simp only [optionalType, List.nil_append, ahead_at_bind, noType_of_endsType ends, noFunc rfl]
    rfl
  | @present t tokens typed =>
    have form := TypeExpr.form_of_sound (typed ▸ sound t rfl)
    have starts : (startsType (tokens ++ rest) || seesWord "func" (tokens ++ rest)) = true := by
      cases func : seesWord "func" tokens with
      | false => simp [startsType_of_form form func rest]
      | true => simp [seesWord_append func rest]
    simp only [optionalType, ahead_at_bind, starts, if_true,
      bind_of_ok (declaredType_form ends c form), typed]
    rfl

/-- A spec that can be written, as it is written. -/
def ValueSpec.WrittenAs (s : ValueSpec) (tokens : Tokens) : Prop := s.Sound ∧ s.SpelledBy tokens

theorem valueSpec_takes : Takes valueSpec ValueSpec.WrittenAs id (endsItem ·) := by
  rintro _ _ ⟨sound, @⟨names, type, values, front, middle, back, named, typed, valued⟩⟩ c rest ends
  -- Behind the type comes an equals sign or the end of the spec, and only the end of a spec that
  -- has a type.
  have behind : endsType (back ++ rest) ∧
      (type = none → seesWord "func" (back ++ rest) = false) := by
    cases valued with
    | absent =>
      refine ⟨endsType_of_endsItem ends, fun untyped => ?_⟩
      exact absurd sound.declares (by simp [untyped])
    | present joint p _ =>
      exact ⟨by simp [endsType, startsType, seesGroup, seesArrow, seesAnyWord], fun _ => rfl⟩
  have noComma : seesPunct [','] (middle ++ (back ++ rest)) = false := by
    cases typed with
    | @present t _ typed =>
      have form := TypeExpr.form_of_sound (typed ▸ sound.typed t rfl)
      exact seesPunct_form form (by decide) (by decide) _
    | absent =>
      cases valued with
      | absent => exact noMark_of_endsItem ends (by decide)
      | present => simp
  have readNames := commaList_enumerated (anyWord_takes id) (fun _ _ _ => trivial) named _ trivial
    noComma c
  have readType := optionalType_spelled c typed sound.typed behind.1 behind.2
  have readValues := initialisers_spelled c valued sound.valued ends
  have declares : (type.isNone && values.isEmpty) = false := by
    have := sound.declares
    cases type <;> cases values <;> simp_all
  rw [valueSpec_eq, List.append_assoc, List.append_assoc, bind_of_ok readNames,
    bind_of_ok readType, bind_of_ok readValues, declares, List.map_id]
  rfl

theorem valueSpec_opens (s : ValueSpec) (tokens : Tokens) (spelled : s.SpelledBy tokens) :
    ∃ w p more, tokens = .word w p :: more := by
  obtain ⟨⟨_, _, _, _, _, rfl, ⟨p, rfl⟩, _⟩, _, _⟩ := spelled
  exact ⟨_, p, _, rfl⟩

end Specs

theorem valueSpecs_one {s : ValueSpec} {tokens : Tokens} (sound : s.Sound)
    (spelled : s.SpelledBy tokens) {rest : Tokens} (ends : endsItem rest) (c : Cursor) :
    valueSpecs (c.at (tokens ++ rest)) = .ok ([s], c.at rest) := by
  have read := valueSpec_takes s tokens ⟨sound, spelled⟩ c rest ends
  have noGroup : seesGroup .paren (tokens ++ rest) = false := by
    obtain ⟨w, p, more, rfl⟩ := valueSpec_opens s tokens spelled
    rfl
  simp only [valueSpecs, ahead_at_bind, noGroup, Bool.false_eq_true, if_false, bind_of_ok read]
  rfl

theorem valueSpecs_many {specs : List ValueSpec} {inner : Tokens} (sound : ∀ s ∈ specs, s.Sound)
    (series : Series ValueSpec.SpelledBy (endsItem ·) specs inner) (p q : Position) (rest : Tokens)
    (c : Cursor) :
    valueSpecs (c.at (.group .paren inner p q :: rest)) = .ok (specs, c.at rest) := by
  have written : Series ValueSpec.WrittenAs (endsItem ·) specs inner :=
    series.imp fun s member _ spelled => ⟨sound s member, spelled⟩
  have isGroup : valueSpecs (c.at (.group .paren inner p q :: rest)) =
      inside .paren (items valueSpec) (c.at (.group .paren inner p q :: rest)) := rfl
  rw [isGroup]
  exact inside_of_ok (items_series valueSpec_takes
    (fun s t spelled => valueSpec_opens s t spelled.2) (fun _ _ _ ends => ends) written)

section Skipped

variable {tokens rest : Tokens} (c : Cursor)

theorem funcTokens_form (form : SkippedForm .func tokens) :
    funcTokens (c.at (tokens ++ rest)) = .ok (tokens, c.at rest) := by
  cases form with
  | @func receiver types head bound w p generic signed inner q r =>
    let body := Token.group .brace inner q r
    have noParen (a : Tokens) : seesGroup .paren (.word w p :: a) = false := rfl
    have noBracket : seesGroup .bracket (head ++ body :: rest) = false := by cases signed <;> rfl
    have fuel (a : Tokens) : typeFuel (c.at a) = .ok (2 * a.length + 2, c.at a) := rfl
    have readReceiver := optionalToken_group c bound (noParen (types ++ (head ++ body :: rest)))
    have readTypes := optionalToken_group c generic noBracket
    have readHead : signature (2 * (head ++ body :: rest).length + 2)
        (c.at (head ++ body :: rest)) = .ok (head, c.at (body :: rest)) :=
      signature_form rfl c signed (by simp only [List.length_append]; omega)
    simp only [List.append_assoc, List.cons_append, List.nil_append, funcTokens,
      bind_of_ok readReceiver, bind_of_ok (require_word c _ w p), bind_of_ok readTypes,
      bind_of_ok (fuel _), bind_of_ok readHead, body,
      bind_of_ok (require_group c _ .brace inner q r)]
    rfl

theorem typeDeclTokens_form (form : SkippedForm .type tokens) (ends : endsItem rest) :
    typeDeclTokens (c.at (tokens ++ rest)) = .ok (tokens, c.at rest) := by
  cases form with
  | types inner p q => rfl
  | @type w p equals type aliased form =>
    have noEquals := seesPunct_form form (show '=' ≠ '*' by decide) (by decide) rest
    have readEquals : optionalToken (seesPunct ['=']) (c.at (equals ++ (type ++ rest))) =
        .ok (equals, c.at (type ++ rest)) := by
      cases aliased with
      | absent => exact optionalToken_absent c noEquals
      | present joint p => exact optionalToken_present c (by cases joint <;> rfl)
    have readType := declaredType_form (endsType_of_endsItem ends) c form
    have noGroup (a : Tokens) : seesGroup .paren (.word w p :: a) = false := rfl
    simp only [List.cons_append, List.append_assoc, typeDeclTokens, ahead_at_bind, noGroup,
      Bool.false_eq_true, if_false, bind_of_ok (require_word c _ w p), bind_of_ok readEquals,
      bind_of_ok readType]
    rfl

theorem importTokens_form (form : SkippedForm .imports tokens) :
    importTokens (c.at (tokens ++ rest)) = .ok (tokens, c.at rest) := by
  cases form with
  | path | paths => rfl
  | @namedPath t noString noGroup text value p =>
    have isNamed : importTokens (c.at (t :: .literal (.string text value) p :: rest)) =
        .ok ([t, .literal (.string text value) p], c.at rest) := by
      cases t with
      | literal l q => cases l <;> first | rfl | contradiction
      | group d inner q r => cases d <;> first | rfl | contradiction
      | word | punct => rfl
    exact isNamed

theorem skippedTokens_form {kind : SkippedKind} (form : SkippedForm kind tokens)
    (ends : endsItem rest) :
    skippedTokens kind (c.at (tokens ++ rest)) = .ok (tokens, c.at rest) := by
  cases kind with
  | func => exact funcTokens_form c form
  | type => exact typeDeclTokens_form c form ends
  | imports => exact importTokens_form c form

end Skipped

/-- A declaration that can be written, as it is written. -/
def Declaration.WrittenAs (d : Declaration) (tokens : Tokens) : Prop := d.Sound ∧ d.SpelledBy tokens

theorem topDeclaration_takes : Takes topDeclaration Declaration.WrittenAs id (endsItem ·) := by
  rintro d tokens ⟨sound, spelled⟩ c rest ends
  cases spelled with
  | spec keyword p spelled =>
    have read := valueSpecs_one (sound _ (List.mem_singleton_self _)) spelled ends c
    rw [List.cons_append, topDeclaration_valueWord, bind_of_ok read]
    rfl
  | specs keyword p q r series =>
    have read := valueSpecs_many sound series q r rest c
    rw [List.cons_append, List.cons_append, List.nil_append, topDeclaration_valueWord,
      bind_of_ok read]
    rfl
  | skipped kind p tokens =>
    rw [List.cons_append, topDeclaration_skippedWord, bind_of_ok (skippedTokens_form c sound ends)]
    rfl

theorem Declaration.SpelledBy.opens {d : Declaration} {tokens : Tokens}
    (spelled : d.SpelledBy tokens) :
    ∃ w p more, w ∈ declarationWords ∧ tokens = .word w p :: more := by
  cases spelled with
  | spec keyword | specs keyword => exact ⟨_, _, _, by cases keyword <;> decide, rfl⟩
  | skipped kind => exact ⟨_, _, _, by cases kind <;> decide, rfl⟩

/-- Nothing but a declaration follows a declaration. -/
theorem endsItem_of_series {declarations : List Declaration} {tokens : Tokens}
    (series : Series Declaration.WrittenAs (fun _ => True) declarations tokens) :
    endsItem tokens := by
  cases series with
  | nil => rfl
  | semicolon => rfl
  | cons first =>
    obtain ⟨w, p, more, opens, rfl⟩ := first.2.opens
    simpa [endsItem] using opens

theorem Declaration.readAll_of_rendering {declarations : List Declaration} {tokens : Tokens}
    (sound : ∀ d ∈ declarations, d.Sound) (rendering : Rendering declarations tokens) :
    Declaration.readAll tokens = .ok declarations := by
  have series : Series Declaration.WrittenAs (fun _ => True) declarations tokens :=
    Series.imp (fun d member _ spelled => ⟨sound d member, spelled⟩) rendering
  have opens (d : Declaration) (tokens : Tokens) (written : d.WrittenAs tokens) :
      ∃ w p more, tokens = .word w p :: more := by
    obtain ⟨w, p, more, -, rfl⟩ := written.2.opens
    exact ⟨w, p, more, rfl⟩
  exact readAll_eq_ok.mpr ⟨_, items_series topDeclaration_takes opens
    (fun _ _ others _ => endsItem_of_series others) series { ahead := [] }, rfl, rfl⟩

/-- Reading undoes writing: declarations that can be written are read back as they were, side by
side and in every other layout. -/
theorem Declaration.readAll_rendering {declarations : List Declaration}
    (sound : ∀ d ∈ declarations, d.Sound) :
    Declaration.readAll (declarations.flatMap render) = .ok declarations ∧
      ∀ tokens, Rendering declarations tokens → Declaration.readAll tokens = .ok declarations :=
  ⟨readAll_of_rendering sound (rendering_flatMap sound), fun _ => readAll_of_rendering sound⟩

/-- Declarations without a semicolon between them, the last a group that begins with one:
`var a, var = b - 1 - 2, -c`, `func (r) f() chan<- T {}` and
`const (; x chan <-chan []T; y m.T = (a + b) * c)`. -/
theorem Declaration.readAll_rendering_of_mixed :
    let word (w : String) : Token := .word w {}
    let mark (c : Char) : Token := .punct c false {}
    let int (text : String) : Expr := .literal (.int text)
    let arrow : Tokens := [.punct '<' true {}, mark '-']
    let untyped : ValueSpec :=
      { names := ["a", "var"], type := none
        values := [.binary (.plain .sub) (.binary (.plain .sub) (.name "b") (int "1")) (int "2"),
          .unary .neg (.name "c")] }
    let channels : Tokens := word "chan" :: (arrow ++ [word "chan", .wrap .bracket [], word "T"])
    let func : Tokens := [.wrap .paren [word "r"], word "f", .wrap .paren [], word "chan"] ++
      (arrow ++ [word "T", .wrap .brace []])
    let typed : ValueSpec := { names := ["x"], type := some (.composite channels), values := [] }
    let both : ValueSpec :=
      { names := ["y"], type := some (.composite [word "m", mark '.', word "T"])
        values := [.binary (.plain .mul)
          (.paren (.binary (.plain .add) (.name "a") (.name "b"))) (.name "c")] }
    let declarations := [.value .var [untyped], .skipped .func func, .value .const [typed, both]]
    (∀ d ∈ declarations, d.Sound) ∧
      Declaration.readAll
        (word "var" :: (untyped.render ++ (word "func" :: (func ++ [word "const",
          .wrap .paren (mark ';' :: (typed.render ++ mark ';' :: both.render))])))) =
        .ok declarations := by
  intro word mark int arrow untyped channels func typed both declarations
  have soundUntyped : untyped.Sound := ⟨nofun, nofun, by decide +zetaReduce, .inr nofun⟩
  have element : TypeForm [.wrap .bracket [], word "T"] :=
    .array [] {} {} (.named (by decide) {} .absent .absent)
  have soundChannels : TypeExpr.Sound (.composite channels) :=
    ⟨.channel {} (.receive {} {} false {} element), by simp [channels, arrow]⟩
  have soundQualified : TypeExpr.Sound (.composite [word "m", mark '.', word "T"]) :=
    ⟨.named (by decide) {} (.present false "T" {} {}) .absent, by simp⟩
  have soundTyped : typed.Sound := ⟨nofun, by simpa [typed] using soundChannels, nofun, .inl nofun⟩
  have soundBoth : both.Sound :=
    ⟨nofun, by simpa [both] using soundQualified, by decide +zetaReduce, .inl nofun⟩
  have result : TypeForm (word "chan" :: (arrow ++ [word "T"])) :=
    .send {} {} {} false (.named (by decide) {} .absent .absent)
  have soundFunc : SkippedForm .func func :=
    .func (.present _ {} {}) "f" {} .absent (.result [] {} {} result rfl) [] {} {}
  have sound : ∀ d ∈ declarations, d.Sound := by
    simp [declarations, Declaration.Sound, soundUntyped, soundTyped, soundBoth, soundFunc]
  have specs : Series ValueSpec.SpelledBy (endsItem ·) [typed, both] _ :=
    .semicolon false {} (.cons soundTyped.spelledBy_render rfl
      (.semicolon false {} (.cons soundBoth.spelledBy_render rfl .nil)))
  have rendering : Declaration.Rendering declarations _ :=
    .cons (.spec .var {} soundUntyped.spelledBy_render) trivial
      (.cons (.skipped .func {} func) trivial (.cons (.specs .const {} {} {} specs) trivial .nil))
  exact ⟨sound, (Declaration.readAll_rendering sound).2 _ rendering⟩

/-- Names and initialisers without a type. -/
theorem readAll_untyped {names : List String} {values : List Expr} {front back : Tokens}
    (named : Enumerated (Spells Token.word) names front)
    (valued : Enumerated Expr.SpelledBy values back) (grouped : ∀ e ∈ values, e.Grouped)
    (joint : Bool) (start p : Position) :
    Declaration.readAll (.word "var" start :: (front ++ .punct '=' joint p :: back)) =
      .ok [.value .var [{ names, type := none, values }]] := by
  have spelled : ValueSpec.SpelledBy { names, type := none, values }
      (front ++ ([] ++ .punct '=' joint p :: back)) :=
    .parts named .absent (.present joint p valued)
  have sound : ValueSpec.Sound { names, type := none, values } := by
    obtain ⟨w, others, _, _, rfl, -⟩ := named
    obtain ⟨e, more, _, _, rfl, -⟩ := valued
    exact ⟨by simp, nofun, grouped, .inr (by simp)⟩
  have rendering : Declaration.Rendering [.value .var [{ names, type := none, values }]]
      (.word "var" start :: (front ++ ([] ++ .punct '=' joint p :: back)) ++ []) :=
    .cons (.spec .var start spelled) trivial .nil
  rw [List.append_nil, List.nil_append] at rendering
  refine Declaration.readAll_of_rendering ?_ rendering
  simpa [Declaration.Sound] using sound

/-- Initialisers are grouped by precedence: what is written behind `var x =` is read as the trees
whose tokens it is, and nothing of it is left. In front of anything that ends an expression, just
those tokens are taken. -/
theorem Declaration.readAll_initialisers {values : List Expr} {tokens : Tokens}
    (grouped : ∀ e ∈ values, e.Grouped) (spelled : Enumerated Expr.SpelledBy values tokens)
    (x : String) (joint : Bool) (p q r : Position) :
    Declaration.readAll (.word "var" p :: .word x q :: .punct '=' joint r :: tokens) =
        .ok [.value .var [{ names := [x], type := none, values }]] ∧
      ∀ (c : Cursor) rest, endsExpr rest → seesPunct [','] rest = false →
        commaList expression (c.at (tokens ++ rest)) = .ok (values, c.at rest) := by
  have named : Enumerated (Spells Token.word) [x] [.word x q] :=
    ⟨x, [], _, [], rfl, rfl, ⟨q, rfl⟩, .nil⟩
  refine ⟨readAll_untyped named spelled grouped joint p r, fun c rest ends noComma => ?_⟩
  have taken := commaList_enumerated Expr.expression_takes (fun _ _ _ => rfl)
    (spelled.imp fun e member _ spelled => ⟨grouped e member, spelled⟩) rest ends noComma c
  rwa [List.map_id] at taken

/-- `var x = a - b - c, a / b * c < -(d + 1)` with all tokens apart: differences and quotients are
grouped from the left. -/
theorem Declaration.readAll_initialisers_of_left :
    let a := Expr.name "a"
    let b := Expr.name "b"
    let c := Expr.name "c"
    let sum := Expr.binary (.plain .add) (.name "d") (.literal (.int "1"))
    let differences := Expr.binary (.plain .sub) (.binary (.plain .sub) a b) c
    let quotients := Expr.binary (.plain .lt)
      (.binary (.plain .mul) (.binary (.plain .div) a b) c) (.unary .neg (.paren sum))
    let word (w : String) : Token := .word w {}
    let mark (c : Char) : Token := .punct c false {}
    differences.Grouped ∧ quotients.Grouped ∧
      Declaration.readAll [word "var", word "x", mark '=', word "a", mark '-', word "b", mark '-',
        word "c", mark ',', word "a", mark '/', word "b", mark '*', word "c", mark '<', mark '-',
        .wrap .paren [word "d", mark '+', .literal (.int "1") {}]] =
        .ok [.value .var
          [{ names := ["x"], type := none, values := [differences, quotients] }]] := by
  intro a b c sum differences quotients word mark
  have first : differences.Grouped := by decide +zetaReduce
  have second : quotients.Grouped := by decide +zetaReduce
  have grouped : ∀ e ∈ [differences, quotients], e.Grouped := by simp [first, second]
  have spelled : Enumerated Expr.SpelledBy [differences, quotients] _ :=
    enumerated_commaJoined (by simp) fun e member => (grouped e member).spelledBy_tokens
  exact ⟨first, second, (Declaration.readAll_initialisers grouped spelled "x" false {} {} {}).1⟩

section Literals

variable {α β : Type} {name : α → String} {literal : β → Literal} {names : List α} {values : List β}
  {front back : Tokens} (named : Enumerated (Spells fun a => .word (name a)) names front)
  (valued : Enumerated (Spells fun b => .literal (literal b)) values back)
  (joint : Bool) (p : Position) (c : Cursor)

/-- What names, an equals sign and literals say. -/
def untypedSpec (name : α → String) (literal : β → Literal) (names : List α) (values : List β) :
    ValueSpec :=
  { names := names.map name, type := none, values := values.map fun b => .literal (literal b) }

include named valued

theorem readAll_literals (written : ∀ b x, literal b ≠ .bool x) (start : Position) :
    Declaration.readAll (.word "var" start :: (front ++ .punct '=' joint p :: back)) =
      .ok [.value .var [untypedSpec name literal names values]] := by
  have words : Enumerated (fun a => Spells Token.word (name a)) names front := named
  have spelled : Enumerated Expr.SpelledBy (values.map fun b => .literal (literal b)) back :=
    (valued.imp fun b _ _ one => (Expr.SpelledBy.literal (written b)).mpr one).map
  refine readAll_untyped words.map spelled ?_ joint start p
  simpa using fun b _ => Expr.Grouped.literal (literal b) (written b)

end Literals

end GoDecl
