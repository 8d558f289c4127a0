import GoDecl.Proofs.Declarations

/-! Types that functions return. Behind parameters the word `func` is taken for the next
declaration, so a function type that is returned as it stands is cut off in front of that word, and
what is left over is no declaration. Every other type is read whole. -/
namespace GoDecl

open Grammar

/-- Nothing, or a function type: what is left over where the reading of a type is over. -/
def CutOff (left : Tokens) : Prop := left = [] ∨ seesWord "func" left = true ∧ AnyType left

theorem endsItem_of_func {left : Tokens} (func : seesWord "func" left = true) :
    endsItem left = true := by
  match left, func with
  | .word w p :: more, func =>
    have same : w = "func" := by simpa [seesWord] using func
    rw [same]
    rfl

theorem noGroup_of_func {left : Tokens} (func : seesWord "func" left = true) (d : Delimiter) :
    seesGroup d left = false := by
  match left, func with
  | .word _ _ :: _, _ => rfl

theorem CutOff.endsItem {left : Tokens} (ended : CutOff left) : endsItem left = true := by
  rcases ended with rfl | ⟨func, -⟩
  · rfl
  · exact endsItem_of_func func

theorem CutOff.noGroup {left : Tokens} (ended : CutOff left) (d : Delimiter) :
    seesGroup d left = false := by
  rcases ended with rfl | ⟨func, -⟩
  · rfl
  · exact noGroup_of_func func d

/-- Parameters and what is behind them are cut off where the result begins with `func`, or else
where the result is. -/
theorem SignatureForm.exists_cut {result taken left : Tokens} (inner : Tokens) (p q : Position)
    (any : AnyType result) (same : result = taken ++ left) (form : TypeForm taken)
    (ended : CutOff left) :
    ∃ head more, .group .paren inner p q :: result = head ++ more ∧ SignatureForm head ∧
      CutOff more := by
  cases func : seesWord "func" taken with
  | true =>
    have begins : seesWord "func" result = true := same ▸ seesWord_append func left
    exact ⟨[.group .paren inner p q], result, rfl, .bare inner p q, .inr ⟨begins, any⟩⟩
  | false =>
    refine ⟨.group .paren inner p q :: taken, left, ?_, .result inner p q form func, ended⟩
    rw [same, List.cons_append]

/-- The part of a type that is read. -/
theorem AnyType.exists_cut {type : Tokens} (any : AnyType type) :
    ∃ taken left, type = taken ++ left ∧ TypeForm taken ∧ CutOff left := by
  have whole {tokens : Tokens} (form : TypeForm tokens) :
      ∃ taken left, tokens = taken ++ left ∧ TypeForm taken ∧ CutOff left :=
    ⟨tokens, [], (List.append_nil _).symm, form, .inl rfl⟩
  induction any with
  | named free p qualified applied => exact whole (.named free p qualified applied)
  | func p inner q r => exact whole (.func p inner q r)
  | body opens p inner q r => exact whole (.body opens p inner q r)
  | paren inner p q => exact whole (.paren inner p q)
  | pointer joint p _ ih =>
    obtain ⟨taken, left, rfl, form, ended⟩ := ih
    exact ⟨_, left, rfl, .pointer joint p form, ended⟩
  | array inner p q _ ih =>
    obtain ⟨taken, left, rfl, form, ended⟩ := ih
    exact ⟨_, left, rfl, .array inner p q form, ended⟩
  | map p inner q r _ ih =>
    obtain ⟨taken, left, rfl, form, ended⟩ := ih
    exact ⟨_, left, rfl, .map p inner q r form, ended⟩
  | channel p _ ih =>
    obtain ⟨taken, left, rfl, form, ended⟩ := ih
    exact ⟨_, left, rfl, .channel p form, ended⟩
  | send p q r joint _ ih =>
    obtain ⟨taken, left, rfl, form, ended⟩ := ih
    exact ⟨_, left, rfl, .send p q r joint form, ended⟩
  | receive q r joint p _ ih =>
    obtain ⟨taken, left, rfl, form, ended⟩ := ih
    exact ⟨_, left, rfl, .receive q r joint p form, ended⟩
  | funcTo p inner q r any _ ih =>
    obtain ⟨taken, left, same, form, ended⟩ := ih
    obtain ⟨head, more, cut, signed, ended⟩ :=
      SignatureForm.exists_cut inner q r any same form ended
    refine ⟨.word "func" p :: head, more, by rw [cut, List.cons_append], ?_, ended⟩
    cases signed with
    | bare => exact .func p _ _ _
    | result _ _ _ behind noFunc => exact .funcTo p _ _ _ behind noFunc

/-- The reader refuses what is ahead, however deep it may go. -/
def Refuses {α : Type} (reader : Parser α) (c : Cursor) : Prop :=
  ∃ message place, reader c = .error (.refused message place)

section Refusals

variable {α β : Type} {first : Parser α} {c d : Cursor} {a : α} {next : α → Parser β}

theorem Refuses.bind (refuses : Refuses first c) (next : α → Parser β) :
    Refuses (first >>= next) c := by
  obtain ⟨message, place, failed⟩ := refuses
  refine ⟨message, place, ?_⟩
  change (first c >>= fun p => next p.1 p.2) = _
  rw [failed]
  rfl

theorem Refuses.behind (taken : first c = .ok (a, d)) (refuses : Refuses (next a) d) :
    Refuses (first >>= next) c := by
  obtain ⟨message, place, failed⟩ := refuses
  exact ⟨message, place, (bind_of_ok taken next).trans failed⟩

theorem refuses_require {sees : Tokens → Bool} (complaint : String) {tokens : Tokens}
    (unseen : sees tokens = false) : Refuses (require sees complaint) (c.at tokens) := by
  simp only [Refuses, require, ahead_at_bind, unseen]
  exact ⟨_, _, rfl⟩

theorem readAll_of_refuses {tokens : Tokens} (refuses : Refuses first { ahead := tokens }) :
    ∃ message place, Grammar.readAll first tokens = .error (.refused message place) := by
  obtain ⟨message, place, failed⟩ := refuses
  refine ⟨message, place, ?_⟩
  rw [Grammar.readAll, StateT.run, failed]
  rfl

end Refusals

section Functions

variable {c : Cursor} {α : Type} (next : Tokens → Tokens → Parser α)

/-- The head of a function and its body. -/
def headAndBody (next : Tokens → Tokens → Parser α) : Parser α := do
  let head ← signature (← typeFuel)
  let body ← require (seesGroup .brace) "expected a function body"
  next head body

theorem headAndBody_at (tokens : Tokens) :
    headAndBody next (c.at tokens) =
      (signature (2 * tokens.length + 2) >>= fun head =>
        require (seesGroup .brace) "expected a function body" >>= next head) (c.at tokens) := rfl

theorem refuses_signature {tokens : Tokens} (noGroup : seesGroup .paren tokens = false)
    (fuel : Nat) : Refuses (signature (fuel + 1)) (c.at tokens) := by
  rw [signature]
  exact .bind (refuses_require _ noGroup) _

theorem refuses_noHead {tokens : Tokens} (noGroup : seesGroup .paren tokens = false) :
    Refuses (headAndBody next) (c.at tokens) := by
  rw [Refuses, headAndBody_at]
  exact (refuses_signature noGroup _).bind _

/-- A head where no body is behind it. -/
theorem refuses_noBody {head left : Tokens} (signed : SignatureForm head)
    (ends : endsItem left = true) (noBrace : seesGroup .brace left = false) :
    Refuses (headAndBody next) (c.at (head ++ left)) := by
  have enough : 2 * head.length ≤ 2 * (head ++ left).length + 2 := by
    rw [List.length_append]
    omega
  have read := signature_form (endsType_of_endsItem ends) c signed enough
  rw [Refuses, headAndBody_at, bind_of_ok read]
  exact (refuses_require _ noBrace).bind _

theorem refuses_noBody_of_type {result : Tokens} (inner : Tokens) (p q : Position)
    (any : result = [] ∨ AnyType result) :
    Refuses (headAndBody next) (c.at (.group .paren inner p q :: result)) := by
  obtain ⟨head, left, cut, signed, ended⟩ : ∃ head left,
      .group .paren inner p q :: result = head ++ left ∧ SignatureForm head ∧ CutOff left := by
    rcases any with rfl | any
    · exact ⟨_, [], rfl, .bare inner p q, .inl rfl⟩
    · obtain ⟨taken, left, same, form, ended⟩ := any.exists_cut
      exact SignatureForm.exists_cut inner p q any same form ended
  rw [cut]
  exact refuses_noBody next signed ended.endsItem (ended.noGroup .brace)

/-- A type is no head of a function with its body. -/
theorem refuses_headAndBody {type : Tokens} (any : AnyType type) :
    Refuses (headAndBody next) (c.at type) := by
  cases any with
  | paren inner p q => exact refuses_noBody_of_type next inner p q (.inl rfl)
  | body opens => rcases opens with rfl | rfl <;> exact refuses_noHead next rfl
  | named | pointer | array | map | channel | send | receive | func | funcTo =>
    exact refuses_noHead next rfl

/-- Behind a word, too, a type is no more of a function. -/
theorem refuses_behindWord {w : String} {p : Position} {more : Tokens}
    (any : AnyType (.word w p :: more)) (next : Tokens → Tokens → Tokens → Parser α) :
    Refuses (optionalToken (seesGroup .bracket) >>= fun types => headAndBody (next types))
      (c.at more) := by
  have noBracket {tokens : Tokens} (unseen : seesGroup .bracket tokens = false)
      (refuses : Refuses (headAndBody (next [])) (c.at tokens)) :
      Refuses (optionalToken (seesGroup .bracket) >>= fun types => headAndBody (next types))
        (c.at tokens) :=
    .behind (optionalToken_absent c unseen) refuses
  have bracket (inner : Tokens) (p q : Position) {tokens : Tokens}
      (refuses : ∀ types, Refuses (headAndBody (next types)) (c.at tokens)) :
      Refuses (optionalToken (seesGroup .bracket) >>= fun types => headAndBody (next types))
        (c.at (.group .bracket inner p q :: tokens)) :=
    .behind (optionalToken_present c (seesGroup_group ..)) (refuses _)
  cases any with
  | named free p qualified applied =>
    cases qualified with
    | present => exact noBracket rfl (refuses_noHead _ rfl)
    | absent =>
      cases applied with
      | absent => exact noBracket rfl (refuses_noHead _ rfl)
      | present inner q r => exact bracket inner q r fun _ => refuses_noHead _ rfl
  | map _ inner q r behind => exact bracket inner q r fun _ => refuses_headAndBody _ behind
  | channel _ behind =>
    cases behind with
    | array inner q r behind => exact bracket inner q r fun _ => refuses_headAndBody _ behind
    | paren inner q r => exact noBracket rfl (refuses_noBody_of_type _ inner q r (.inl rfl))
    | body opens => rcases opens with rfl | rfl <;> exact noBracket rfl (refuses_noHead _ rfl)
    | named | pointer | map | channel | send | receive | func | funcTo =>
      exact noBracket rfl (refuses_noHead _ rfl)
  | send => exact noBracket rfl (refuses_noHead _ rfl)
  | func _ inner q r => exact noBracket rfl (refuses_noBody_of_type _ inner q r (.inl rfl))
  | funcTo _ inner q r behind =>
    exact noBracket rfl (refuses_noBody_of_type _ inner q r (.inr behind))
  | body => exact noBracket rfl (refuses_noHead _ rfl)

/-- A function type is no declaration of a function: its parameters are read as a receiver, and
neither a name nor a whole function is behind them. -/
theorem refuses_funcTokens {result : Tokens} (inner : Tokens) (p q : Position)
    (any : result = [] ∨ AnyType result) :
    Refuses funcTokens (c.at (.group .paren inner p q :: result)) := by
  refine .behind (optionalToken_present c (seesGroup_group ..)) ?_
  rcases any with rfl | any
  · exact (refuses_require _ rfl).bind _
  · cases seen : seesAnyWord result with
    | false => exact (refuses_require _ seen).bind _
    | true =>
      match result, seen with
      | .word w p :: more, _ =>
        exact .behind (require_word c _ w p) (refuses_behindWord any _)

theorem refuses_func (p : Position) {tokens : Tokens} (refuses : Refuses funcTokens (c.at tokens)) :
    Refuses topDeclaration (c.at (.word "func" p :: tokens)) := by
  have opens := topDeclaration_skippedWord .func p tokens c
  rw [SkippedKind.text] at opens
  rw [Refuses, opens]
  exact refuses.bind _

theorem refuses_topDeclaration {left : Tokens} (func : seesWord "func" left = true)
    (any : AnyType left) : Refuses topDeclaration (c.at left) := by
  cases any with
  | func p inner q r => exact refuses_func p (refuses_funcTokens inner q r (.inl rfl))
  | funcTo p inner q r behind => exact refuses_func p (refuses_funcTokens inner q r (.inr behind))
  | @named n free =>
    have same : n = "func" := by simpa [seesWord] using func
    exact absurd (show "func" ∈ typeWords by decide) (same ▸ free)
  | body opens => rcases opens with rfl | rfl <;> simp [seesWord] at func
  | pointer | array | map | channel | send | receive | paren => simp [seesWord] at func

end Functions

section Items

variable {c : Cursor} {tokens left : Tokens}

theorem items_word (w : String) (p : Position) (more : Tokens) :
    items topDeclaration (c.at (.word w p :: more)) =
      (topDeclaration >>= fun first => itemsFrom topDeclaration (more.length + 1) >>= fun others =>
        pure (first :: others)) (c.at (.word w p :: more)) := by
  have run : items topDeclaration (c.at (.word w p :: more)) =
      itemsFrom topDeclaration (more.length + 1 + 1) (c.at (.word w p :: more)) := rfl
  rw [run, itemsFrom_word]

theorem refuses_items {w : String} {p : Position} {more : Tokens}
    (refuses : Refuses topDeclaration (c.at (.word w p :: more))) :
    Refuses (items topDeclaration) (c.at (.word w p :: more)) := by
  rw [Refuses, items_word]
  exact refuses.bind _

/-- A declaration that leaves a part of a type over spoils the reading. -/
theorem refuses_items_of_cut {w : String} {p : Position} {more : Tokens} {d : Declaration}
    (read : topDeclaration (c.at (.word w p :: more)) = .ok (d, c.at left))
    (func : seesWord "func" left = true) (any : AnyType left) :
    Refuses (items topDeclaration) (c.at (.word w p :: more)) := by
  have second := refuses_topDeclaration (c := c) func any
  have refuses : Refuses (itemsFrom topDeclaration (more.length + 1)) (c.at left) := by
    match left, func with
    | .word v q :: rest, _ =>
      rw [Refuses, itemsFrom_word]
      exact second.bind _
  rw [Refuses, items_word]
  exact Refuses.behind read (refuses.bind _)

end Items

section Declared

variable {type : Tokens} (p q : Position)

/-- One name of a type, without values. -/
def typedSpec (x : String) (type : Tokens) : ValueSpec :=
  { names := [x], type := some (.ofTokens type), values := [] }

theorem TypeForm.sound_ofTokens (form : TypeForm type) : (TypeExpr.ofTokens type).Sound := by
  unfold TypeExpr.ofTokens
  split
  · next n r =>
    generalize same : [Token.word n r] = tokens at form
    cases form with
    | named free =>
      simp only [List.cons.injEq, Token.word.injEq] at same
      exact same.1.1 ▸ free
    | channel p behind =>
      simp only [List.cons.injEq] at same
      rw [← same.2] at behind
      cases behind
    | pointer | array | map | send | receive | func | funcTo | body | paren => simp at same
  · next other => exact ⟨form, fun w r same => other w r same⟩

theorem typedSpec_sound (x : String) (form : TypeForm type) : (typedSpec x type).Sound where
  named := nofun
  typed := by simpa [typedSpec] using form.sound_ofTokens
  valued := nofun
  declares := .inl nofun

theorem typedSpec_spelledBy (x : String) :
    (typedSpec x type).SpelledBy (.word x q :: type) := by
  have named : Enumerated (Spells Token.word) [x] [.word x q] :=
    ⟨x, [], _, [], rfl, rfl, ⟨q, rfl⟩, .nil⟩
  have spelled := ValueSpec.SpelledBy.parts named (.present (t := .ofTokens type) rfl) .absent
  rwa [List.append_nil] at spelled

theorem readAll_typedSpec (x : String) (form : TypeForm type) :
    Declaration.readAll (.word "var" p :: .word x q :: type) =
      .ok [.value .var [typedSpec x type]] := by
  have rendering : Declaration.Rendering [.value .var [typedSpec x type]]
      (.word "var" p :: .word x q :: type ++ []) :=
    .cons (.spec .var p (typedSpec_spelledBy q x)) trivial .nil
  rw [List.append_nil] at rendering
  refine Declaration.readAll_of_rendering ?_ rendering
  simpa [Declaration.Sound] using typedSpec_sound x form

/-- A type that is not read whole is over in front of a function type. -/
theorem AnyType.exists_func (any : AnyType type) (whole : ¬ TypeForm type) :
    ∃ taken left, type = taken ++ left ∧ TypeForm taken ∧ seesWord "func" left = true ∧
      AnyType left := by
  obtain ⟨taken, left, same, form, rfl | ⟨func, rest⟩⟩ := any.exists_cut
  · rw [List.append_nil] at same
    exact absurd (same ▸ form) whole
  · exact ⟨taken, left, same, form, func, rest⟩

theorem refuses_typedSpec (x : String) (any : AnyType type) (whole : ¬ TypeForm type) :
    ∃ message place, Declaration.readAll (.word "var" p :: .word x q :: type) =
      .error (.refused message place) := by
  obtain ⟨taken, left, rfl, form, func, rest⟩ := any.exists_func whole
  let c : Cursor := { ahead := [] }
  have written : Declaration.WrittenAs (.value .var [typedSpec x taken])
      (.word "var" p :: .word x q :: taken) :=
    ⟨by simpa [Declaration.Sound] using typedSpec_sound x form,
      .spec .var p (typedSpec_spelledBy q x)⟩
  have read := topDeclaration_takes _ _ written c left (endsItem_of_func func)
  exact readAll_of_refuses (refuses_items_of_cut read func rest)

variable (f : String) (parameters body : Tokens) (r s t u : Position)

/-- What follows `func`: a name, parameters, a result and a body. -/
def funcWith (result : Tokens) : Tokens :=
  .word f q :: .group .paren parameters r s :: (result ++ [.group .brace body t u])

theorem readAll_funcWith (form : TypeForm type) (noFunc : seesWord "func" type = false) :
    Declaration.readAll (.word "func" p :: funcWith q f parameters body r s t u type) =
      .ok [.skipped .func (funcWith q f parameters body r s t u type)] := by
  have whole : SkippedForm .func (funcWith q f parameters body r s t u type) :=
    .func .absent f q .absent (.result parameters r s form noFunc) body t u
  have rendering : Declaration.Rendering
      [.skipped .func (funcWith q f parameters body r s t u type)]
      (.word "func" p :: funcWith q f parameters body r s t u type ++ []) :=
    .cons (.skipped .func p _) trivial .nil
  rw [List.append_nil] at rendering
  refine Declaration.readAll_of_rendering ?_ rendering
  simpa [Declaration.Sound] using whole

/-- A result that is cut off, or that is a function type itself, leaves no body behind the head. -/
theorem refuses_funcWith (any : AnyType type)
    (whole : ¬ (TypeForm type ∧ seesWord "func" type = false)) :
    ∃ message place,
      Declaration.readAll (.word "func" p :: funcWith q f parameters body r s t u type) =
        .error (.refused message place) := by
  let c : Cursor := { ahead := [] }
  let block : Tokens := [.group .brace body t u]
  obtain ⟨head, left, cut, signed, func⟩ : ∃ head left,
      .group .paren parameters r s :: type = head ++ left ∧ SignatureForm head ∧
        seesWord "func" left = true := by
    obtain ⟨taken, left, same, form, ended⟩ := any.exists_cut
    obtain ⟨head, more, cut, signed, rfl | ⟨func, -⟩⟩ :=
      SignatureForm.exists_cut parameters r s any same form ended
    · rw [List.append_nil] at cut
      rw [← cut] at signed
      cases signed with
      | bare => cases any
      | result _ _ _ form noFunc => exact absurd ⟨form, noFunc⟩ whole
    · exact ⟨head, more, cut, signed, func⟩
  have behind := seesWord_append func block
  have tokens : .group .paren parameters r s :: (type ++ block) = head ++ (left ++ block) := by
    rw [← List.cons_append, cut, List.append_assoc]
  have refuses (next : Tokens → Tokens → Parser Tokens) :
      Refuses (headAndBody next) (c.at (.group .paren parameters r s :: (type ++ block))) := by
    rw [tokens]
    exact refuses_noBody next signed (endsItem_of_func behind) (noGroup_of_func behind .brace)
  have noHead : Refuses funcTokens (c.at (funcWith q f parameters body r s t u type)) :=
    .behind (optionalToken_absent c rfl) (.behind (require_word c _ f q)
      (.behind (optionalToken_absent c rfl) (refuses _)))
  exact readAll_of_refuses (refuses_items (refuses_func p noHead))

/-- A type is declared and returned with just its own tokens, provided that no function in it
returns a function type as it stands; of a function, the result is such a place, too. Everything
else is refused. -/
theorem Declaration.readAll_anyType (any : AnyType type) (x : String) :
    let var := .word "var" p :: .word x q :: type
    let func := funcWith q f parameters body r s t u type
    (readAll var = .ok [.value .var [typedSpec x type]] ↔ TypeForm type) ∧
    (¬ TypeForm type → ∃ message place, readAll var = .error (.refused message place)) ∧
    (readAll (.word "func" p :: func) = .ok [.skipped .func func] ↔
      TypeForm type ∧ seesWord "func" type = false) ∧
    (¬ (TypeForm type ∧ seesWord "func" type = false) →
      ∃ message place, readAll (.word "func" p :: func) = .error (.refused message place)) := by
  intro var func
  have refusedType := refuses_typedSpec p q x any
  have refusedResult := refuses_funcWith p q f parameters body r s t u any
  refine ⟨⟨fun read => ?_, readAll_typedSpec p q x⟩, refusedType, ⟨fun read => ?_, ?_⟩,
    refusedResult⟩
  · refine Classical.byContradiction fun cut => ?_
    obtain ⟨message, place, refused⟩ := refusedType cut
    simp [var, refused] at read
  · refine Classical.byContradiction fun cut => ?_
    obtain ⟨message, place, refused⟩ := refusedResult cut
    simp [func, refused] at read
  · rintro ⟨form, noFunc⟩
    exact readAll_funcWith p q f parameters body r s t u form noFunc

end Declared

/-- `map[string]func(a) *func() int` as the type of a name and as the result of a function: the
inner function stands behind a star. -/
theorem Declaration.readAll_anyType_of_pointer :
    let word (w : String) : Token := .word w {}
    let type : Tokens := [word "map", .wrap .bracket [word "string"], word "func",
      .wrap .paren [word "a"], .punct '*' false {}, word "func", .wrap .paren [], word "int"]
    let func := funcWith {} "f" [] [] {} {} {} {} type
    AnyType type ∧
      readAll (word "var" :: word "x" :: type) = .ok [.value .var [typedSpec "x" type]] ∧
      readAll (word "func" :: func) = .ok [.skipped .func func] := by
  intro word type func
  have int : "int" ∉ typeWords := by decide
  have any : AnyType type := .map {} _ {} {} (.funcTo {} _ {} {} (.pointer false {}
    (.funcTo {} [] {} {} (.named int {} .absent .absent) trivial)) trivial)
  have form : TypeForm type := .map {} _ {} {} (.funcTo {} _ {} {} (.pointer false {}
    (.funcTo {} [] {} {} (.named int {} .absent .absent) rfl)) rfl)
  obtain ⟨declared, -, returned, -⟩ := readAll_anyType {} {} "f" [] [] {} {} {} {} any "x"
  exact ⟨any, declared.mpr form, returned.mpr ⟨form, rfl⟩⟩

/-- A function that returns a function is a type, and yet neither `var f func() func() int` nor
`func f() func() int {}` is read. -/
theorem Declaration.readAll_function_of_function :
    let word (w : String) : Token := .word w {}
    let unit : Token := .wrap .paren []
    let result : Tokens := [word "func", unit, word "int"]
    let type : Tokens := word "func" :: unit :: result
    let func := funcWith {} "f" [] [] {} {} {} {} result
    AnyType result ∧ AnyType type ∧
      readAll (word "var" :: word "f" :: type) ≠ .ok [.value .var [typedSpec "f" type]] ∧
      readAll (word "func" :: func) ≠ .ok [.skipped .func func] ∧
      (∃ e, Declaration.parse "var f func() func() int" = .error e) ∧
      ∃ e, Declaration.parse "func f() func() int \x7b\x7d" = .error e := by
  intro word unit result type func
  have int : "int" ∉ typeWords := by decide
  have anyResult : AnyType result := .funcTo {} [] {} {} (.named int {} .absent .absent) trivial
  have noType : (readAll (word "var" :: word "f" :: type)).isOk = false := by decide +kernel
  have noResult : (readAll (word "func" :: func)).isOk = false := by decide +kernel
  have unread {read : Except ParseError (List Declaration)} (failed : read.isOk = false) :
      ∃ e, read = .error e := by
    cases read with
    | error e => exact ⟨e, rfl⟩
    | ok => cases failed
  refine ⟨anyResult, .funcTo {} [] {} {} anyResult trivial, ?_, ?_, unread (by decide +kernel),
    unread (by decide +kernel)⟩
  · intro read
    rw [read] at noType
    cases noType
  · intro read
    rw [read] at noResult
    cases noResult

end GoDecl
