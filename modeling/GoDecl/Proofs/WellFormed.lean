import GoDecl.Proofs.Leading

/-! What accepted declarations look like. The evaluator relies on their shape without a look at it,
so it has to follow from the readers: whatever is ahead, each gives back a form of its own kind, and
the forms fit together up to whole sources. -/
namespace GoDecl

open Grammar

/-- The tokens that are read as a type. An arrow may stand in front of any type, and a result does
not begin with `func`, which would open the next declaration. -/
inductive AcceptedType : Tokens → Prop where
  | named {n : String} (free : n ∉ typeWords) (p : Position) {qualifier arguments : Tokens}
      (qualified : Qualifier qualifier) (applied : OptionalGroup .bracket arguments) :
      AcceptedType (.word n p :: (qualifier ++ arguments))
  | pointer (joint : Bool) (p : Position) {target : Tokens} (behind : AcceptedType target) :
      AcceptedType (.punct '*' joint p :: target)
  | array (inner : Tokens) (p q : Position) {element : Tokens} (behind : AcceptedType element) :
      AcceptedType (.group .bracket inner p q :: element)
  | arrow (p q : Position) (joint : Bool) {element : Tokens} (behind : AcceptedType element) :
      AcceptedType (.punct '<' true p :: .punct '-' joint q :: element)
  | map (p : Position) (inner : Tokens) (q r : Position) {element : Tokens}
      (behind : AcceptedType element) :
      AcceptedType (.word "map" p :: .group .bracket inner q r :: element)
  | channel (p : Position) {element : Tokens} (behind : AcceptedType element) :
      AcceptedType (.word "chan" p :: element)
  | func (p : Position) (inner : Tokens) (q r : Position) :
      AcceptedType [.word "func" p, .group .paren inner q r]
  | funcTo (p : Position) (inner : Tokens) (q r : Position) {result : Tokens}
      (behind : AcceptedType result) (noFunc : seesWord "func" result = false) :
      AcceptedType (.word "func" p :: .group .paren inner q r :: result)
  | body {w : String} (opens : w = "struct" ∨ w = "interface") (p : Position) (inner : Tokens)
      (q r : Position) : AcceptedType [.word w p, .group .brace inner q r]
  | paren (inner : Tokens) (p q : Position) : AcceptedType [.group .paren inner p q]

/-- What stands behind parameters: nothing, or a type that is not that of a function. -/
inductive AcceptedResult : Tokens → Prop where
  | absent : AcceptedResult []
  | present {type : Tokens} (typed : AcceptedType type) (noFunc : seesWord "func" type = false) :
      AcceptedResult type

theorem AcceptedType.ne_nil {type : Tokens} (accepted : AcceptedType type) : type ≠ [] := by
  cases accepted <;> exact List.cons_ne_nil _ _

/-- A type that is a single word is the name of a type. -/
theorem AcceptedType.free_of_word {w : String} {p : Position}
    (accepted : AcceptedType [.word w p]) : w ∉ typeWords := by
  generalize same : [Token.word w p] = type at accepted
  cases accepted with
  | named free =>
    obtain ⟨⟨rfl, -⟩, -⟩ : (w = _ ∧ p = _) ∧ _ := by simpa using same
    exact free
  | channel p behind =>
    cases same
    exact absurd rfl behind.ne_nil
  | _ => cases same

theorem AcceptedResult.func {result : Tokens} (accepted : AcceptedResult result) (p : Position)
    (inner : Tokens) (q r : Position) :
    AcceptedType (.word "func" p :: .group .paren inner q r :: result) := by
  cases accepted with
  | absent => exact .func p inner q r
  | present typed noFunc => exact .funcTo p inner q r typed noFunc

/-- A bare name is no word that opens a declaration or a longer type, and all else is longer than
one word. -/
def TypeExpr.WellFormed : TypeExpr → Prop
  | .name n => n ∉ typeWords
  | .composite tokens => tokens ≠ [] ∧ (∀ w p, tokens ≠ [.word w p]) ∧ AcceptedType tokens

structure ValueSpec.WellFormed (s : ValueSpec) : Prop where
  named : s.names ≠ []
  declares : s.type ≠ none ∨ s.values ≠ []
  typed : ∀ t ∈ s.type, t.WellFormed

/-- What is kept of a declaration without values. -/
inductive SkippedKind.Keeps : SkippedKind → Tokens → Prop where
  /-- A receiver, a name, type parameters, parameters, a result and a body. -/
  | func {receiver types result : Tokens} (bound : OptionalGroup .paren receiver) (w : String)
      (p : Position) (generic : OptionalGroup .bracket types) (parameters : Tokens)
      (q r : Position) (returns : AcceptedResult result) (body : Tokens) (s t : Position) :
      Keeps .func (receiver ++ .word w p :: (types ++ (.group .paren parameters q r ::
        (result ++ [.group .brace body s t]))))
  | type (w : String) (p : Position) {equals type : Tokens} (aliased : OptionalEquals equals)
      (typed : AcceptedType type) : Keeps .type (.word w p :: (equals ++ type))
  | path {front : Tokens} (short : front.length ≤ 1) (text value : String) (p : Position) :
      Keeps .imports (front ++ [.literal (.string text value) p])
  | group (kind : SkippedKind) (noFunc : kind ≠ .func) (inner : Tokens) (p q : Position) :
      Keeps kind [.group .paren inner p q]

def Declaration.WellFormed : Declaration → Prop
  | .value _ specs => ∀ s ∈ specs, s.WellFormed
  | .skipped kind tokens => kind.Keeps tokens

section Seen

variable {t : Token} {rest : Tokens}

theorem group_of_seesGroup {d : Delimiter} (seen : seesGroup d (t :: rest) = true) :
    ∃ inner p q, t = .group d inner p q := by
  cases t with
  | group e inner p q =>
    have same : e = d := by simpa [seesGroup] using seen
    exact ⟨inner, p, q, by rw [same]⟩
  | word | punct | literal => cases seen

theorem word_of_seesAnyWord (seen : seesAnyWord (t :: rest) = true) : ∃ w p, t = .word w p := by
  cases t with
  | word w p => exact ⟨w, p, rfl⟩
  | punct | literal | group => cases seen

theorem word_of_seesWord {w : String} (seen : seesWord w (t :: rest) = true) :
    ∃ p, t = .word w p := by
  cases t with
  | word v p =>
    have same : v = w := by simpa [seesWord] using seen
    exact ⟨p, by rw [same]⟩
  | punct | literal | group => cases seen

theorem literal_of_seesString (seen : seesString (t :: rest) = true) :
    ∃ text value p, t = .literal (.string text value) p := by
  cases t with
  | literal l p =>
    cases l with
    | string text value => exact ⟨text, value, p, rfl⟩
    | _ => cases seen
  | word | punct | group => cases seen

theorem marks_of_seesArrow {a : Tokens} (seen : seesArrow a = true) :
    ∃ p q joint rest, a = .punct '<' true p :: .punct '-' joint q :: rest := by
  cases a with
  | nil => cases seen
  | cons t more =>
    cases t with
    | word | literal | group => cases seen
    | punct c joint p =>
      cases joint with
      | false => cases seen
      | true =>
        have begins : c = '<' ∧ seesPunct ['-'] more = true := by
          simp only [seesArrow, seesPunct, readPunct?] at seen
          split at seen
          · next same =>
            simp only [Bool.and_eq_true, decide_eq_true_eq] at same
            exact ⟨same.1.symm, by simpa [seesPunct] using seen⟩
          · cases seen
        obtain ⟨rfl, ends⟩ := begins
        cases more with
        | nil => simp at ends
        | cons t rest =>
          obtain ⟨joint, q, rfl⟩ := punct_of_seesPunct ends
          exact ⟨p, q, joint, rest, rfl⟩

end Seen

namespace Grammar

variable {α β : Type} {found : β → Prop} {a : Tokens}

/-- With these tokens ahead, whatever the reader gives back is as `found` says. -/
def GivesAt {α : Type} (a : Tokens) (found : α → Prop) (reader : Parser α) : Prop :=
  ∀ c b d, c.ahead = a → reader c = .ok (b, d) → found b

theorem Gives.of_at {reader : Parser β} (each : ∀ a, GivesAt a found reader) :
    Gives found reader := fun c b d taken => each c.ahead c b d rfl taken

namespace GivesAt

theorem of_gives {reader : Parser β} (gives : Gives found reader) : GivesAt a found reader :=
  fun c b d _ taken => gives c b d taken

theorem ahead {next : Tokens → Parser β} (same : GivesAt a found (next a)) :
    GivesAt a found (Grammar.ahead >>= next) := by
  rintro c b d rfl taken
  exact same c b d rfl taken

theorem bind {first : α → Prop} {reader : Parser α} {next : α → Parser β}
    (one : GivesAt a first reader) (other : ∀ b, first b → Gives found (next b)) :
    GivesAt a found (reader >>= next) := by
  intro c b e same taken
  obtain ⟨b', d, before, after⟩ := ok_of_bind taken
  exact other b' (one c b' d same before) d b e after

/-- A choice by what is ahead may be relied on in both of its parts. -/
theorem ite {p : Prop} [Decidable p] {one other : Parser β} (yes : p → GivesAt a found one)
    (no : ¬ p → GivesAt a found other) : GivesAt a found (if p then one else other) := by
  split
  · next holds => exact yes holds
  · next fails => exact no fails

/-- The next token is the first of those ahead. -/
theorem token {next : Token → Parser β} (each : ∀ t rest, a = t :: rest → Gives found (next t)) :
    GivesAt a found (Grammar.token >>= next) := by
  rintro ⟨ahead, close, scope, stray⟩ b d rfl taken
  cases ahead with
  | nil => cases taken
  | cons t rest => exact each t rest rfl _ b d taken

theorem arrow (seen : seesArrow a = true) {next : Tokens → Parser β}
    (each : ∀ p q joint rest, a = .punct '<' true p :: .punct '-' joint q :: rest →
      Gives found (next [.punct '<' true p, .punct '-' joint q])) :
    GivesAt a found (GoDecl.arrow >>= next) := by
  obtain ⟨p, q, joint, rest, same⟩ := marks_of_seesArrow seen
  subst same
  rintro ⟨ahead, close, scope, stray⟩ b d rfl taken
  exact each p q joint rest rfl _ b d taken

end GivesAt

/-- A look at what is ahead, and a token taken where it says so. -/
theorem Gives.look {sees : Tokens → Bool} {next : Token → Parser β} {other : Parser β}
    (yes : ∀ t rest, sees (t :: rest) = true → Gives found (next t)) (no : Gives found other) :
    Gives found (do if sees (← Grammar.ahead) then next (← Grammar.token) else other) :=
  .of_at fun _ => .ahead (.ite (fun seen => .token fun t rest same => yes t rest (same ▸ seen))
    fun _ => .of_gives no)

/-- What is between brackets is given back as it is found there. -/
theorem Gives.inside {body : Parser β} (one : Gives found body) (d : Delimiter) :
    Gives found (Grammar.inside d body) := by
  rintro ⟨ahead, close, scope, stray⟩ b e taken
  match ahead with
  | [] | .word .. :: _ | .punct .. :: _ | .literal .. :: _ => cases taken
  | .group d' inner p q :: rest =>
    by_cases same : d' = d
    · subst same
      let c : Cursor := ⟨[], close, scope, stray⟩
      change Grammar.inside d' body (c.at (.group d' inner p q :: rest)) = _ at taken
      rw [inside_group] at taken
      cases within : body ⟨inner, q, some d', stray⟩ with
      | error fault =>
        rw [within] at taken
        cases taken
      | ok read =>
        rw [within] at taken
        cases taken
        exact one _ _ _ within
    · simp only [Grammar.inside, insideThen, get_bind, same, if_false] at taken
      cases taken

end Grammar

section Parts

variable {sees : Tokens → Bool}

theorem gives_require {found : Tokens → Prop} (complaint : String)
    (one : ∀ t rest, sees (t :: rest) = true → found [t]) :
    Gives found (require sees complaint) :=
  .look (fun t rest seen => .pure (one t rest seen)) (gives_refuse _ complaint)

theorem gives_optionalToken {found : Tokens → Prop} (none : found [])
    (one : ∀ t rest, sees (t :: rest) = true → found [t]) :
    Gives found (optionalToken sees) :=
  .look (fun t rest seen => .pure (one t rest seen)) (.pure none)

theorem gives_requireWord (complaint : String) :
    Gives (fun tokens => ∃ w p, tokens = [.word w p]) (require seesAnyWord complaint) := by
  refine gives_require complaint fun t rest seen => ?_
  obtain ⟨w, p, rfl⟩ := word_of_seesAnyWord seen
  exact ⟨w, p, rfl⟩

theorem gives_requireGroup (d : Delimiter) (complaint : String) :
    Gives (fun tokens => ∃ inner p q, tokens = [.group d inner p q])
      (require (seesGroup d) complaint) := by
  refine gives_require complaint fun t rest seen => ?_
  obtain ⟨inner, p, q, rfl⟩ := group_of_seesGroup seen
  exact ⟨inner, p, q, rfl⟩

theorem gives_requireString (complaint : String) :
    Gives (fun tokens => ∃ text value p, tokens = [.literal (.string text value) p])
      (require seesString complaint) := by
  refine gives_require complaint fun t rest seen => ?_
  obtain ⟨text, value, p, rfl⟩ := literal_of_seesString seen
  exact ⟨text, value, p, rfl⟩

theorem gives_optionalGroup (d : Delimiter) :
    Gives (OptionalGroup d) (optionalToken (seesGroup d)) := by
  refine gives_optionalToken .absent fun t rest seen => ?_
  obtain ⟨inner, p, q, rfl⟩ := group_of_seesGroup seen
  exact .present inner p q

theorem gives_optionalEquals : Gives OptionalEquals (optionalToken (seesPunct ['='])) := by
  refine gives_optionalToken .absent fun t rest seen => ?_
  obtain ⟨joint, p, rfl⟩ := punct_of_seesPunct seen
  exact .present joint p

end Parts

theorem not_mem_typeWords {w : String} {p : Position} {rest : Tokens}
    (noDeclaration : seesDeclarationWord (.word w p :: rest) = false)
    (others : ∀ v ∈ ["map", "chan", "struct", "interface"],
      seesWord v (.word w p :: rest) = false) : w ∉ typeWords := by
  intro fixed
  rcases List.mem_append.mp fixed with opens | longer
  · exact absurd noDeclaration (by simpa [seesDeclarationWord] using opens)
  · exact absurd (others w longer) (by simp [seesWord])

/-- A type that begins where the tokens ahead do. -/
def TypeAt (a type : Tokens) : Prop := AcceptedType type ∧ type.head? = a.head?

theorem TypeAt.noFunc {a type : Tokens} (found : TypeAt a type)
    (noFunc : seesWord "func" a = false) : seesWord "func" type = false := by
  match a, type, found.2 with
  | [], [], _ => rfl
  | t :: _, u :: _, same =>
    obtain rfl : u = t := Option.some.inj same
    cases u <;> exact noFunc

/-- Where none of the longer types begins, a name is read. -/
theorem gives_namedType {a : Tokens}
    (others : ∀ v ∈ ["map", "chan", "struct", "interface"], seesWord v a = false) :
    GivesAt a (TypeAt a) namedType := by
  refine .ahead (.ite (fun _ => .of_gives (gives_refuse _ _)) fun isName => ?_)
  refine .token fun t rest same => ?_
  subst same
  simp only [Bool.or_eq_true, Bool.not_eq_true', not_or, Bool.not_eq_true, Bool.not_eq_false]
    at isName
  obtain ⟨w, p, rfl⟩ := word_of_seesAnyWord isName.1
  have free := not_mem_typeWords isName.2 others
  have applied {qualifier : Tokens} (qualified : Qualifier qualifier) :
      Gives (TypeAt (.word w p :: rest)) (do
        return .word w p :: qualifier ++ (← optionalToken (seesGroup .bracket))) :=
    .bind (gives_optionalGroup .bracket) fun _ arguments =>
      .pure ⟨.named free p qualified arguments, rfl⟩
  refine .look (fun point _ seen => .bind (gives_requireWord _) ?_) (applied .absent)
  obtain ⟨joint, q, rfl⟩ := punct_of_seesPunct seen
  rintro _ ⟨v, r, rfl⟩
  exact applied (.present joint v q r)

/-- A result does not begin with `func` where a type can begin. -/
theorem noFunc_of_startsType {a : Tokens} (noGroup : seesGroup .paren a = false)
    (starts : startsType a = true) : seesWord "func" a = false := by
  match a with
  | .word w p :: rest =>
    have noDeclaration : seesDeclarationWord (.word w p :: rest) = false := by
      simpa [startsType, seesGroup, seesArrow, seesAnyWord] using starts
    simp only [seesWord, decide_eq_false_iff_not]
    rintro rfl
    cases noDeclaration
  | [] | .punct .. :: _ | .literal .. :: _ | .group .. :: _ => rfl

/-- Parameters and what stands behind them. -/
def AcceptedSignature (tokens : Tokens) : Prop :=
  ∃ inner p q result, tokens = .group .paren inner p q :: result ∧ AcceptedResult result

/-- With any fuel, what is read is a type or a signature. -/
theorem gives_types (fuel : Nat) :
    (∀ a, GivesAt a (TypeAt a) (typeTokens fuel)) ∧ Gives AcceptedSignature (signature fuel) := by
  induction fuel with
  | zero => exact ⟨fun _ => .of_gives (.throw _), .throw _⟩
  | succ fuel ih =>
    obtain ⟨typeAt, tail⟩ := ih
    have type : Gives AcceptedType (typeTokens fuel) :=
      .of_at fun a c b d same taken => (typeAt a c b d same taken).1
    constructor
    · intro a
      -- In the order of the reader: parentheses, arrays and pointers, arrows, maps, channels,
      -- functions, types with a body, and names.
      refine .ahead (.ite (fun seen => ?paren) fun _ => .ite (fun seen => ?front) fun _ =>
        .ite (fun seen => ?arrow) fun _ => .ite (fun seen => ?map) fun noMap =>
        .ite (fun seen => ?chan) fun noChan => .ite (fun seen => ?func) fun _ =>
        .ite (fun seen => ?body) fun noBody => ?name)
      case paren =>
        refine .token fun t rest same => ?_
        subst same
        obtain ⟨inner, p, q, rfl⟩ := group_of_seesGroup seen
        exact .pure ⟨.paren inner p q, rfl⟩
      case front =>
        refine .token fun t rest same => .bind type fun element behind => ?_
        subst same
        rcases (Bool.or_eq_true ..).mp seen with bracket | star
        · obtain ⟨inner, p, q, rfl⟩ := group_of_seesGroup bracket
          exact .pure ⟨.array inner p q behind, rfl⟩
        · obtain ⟨joint, p, rfl⟩ := punct_of_seesPunct star
          exact .pure ⟨.pointer joint p behind, rfl⟩
      case arrow =>
        refine .arrow seen fun p q joint rest same => .bind type fun element behind => ?_
        subst same
        exact .pure ⟨.arrow p q joint behind, rfl⟩
      case map =>
        refine .token fun t rest same => .bind (gives_requireGroup .bracket _) ?_
        subst same
        obtain ⟨p, rfl⟩ := word_of_seesWord seen
        rintro _ ⟨inner, q, r, rfl⟩
        exact .bind type fun element behind => .pure ⟨.map p inner q r behind, rfl⟩
      case chan =>
        refine .token fun t rest same => ?_
        subst same
        obtain ⟨p, rfl⟩ := word_of_seesWord seen
        have bare : Gives (TypeAt (.word "chan" p :: rest)) (do
            return .word "chan" p :: (← typeTokens fuel)) :=
          .bind type fun element behind => .pure ⟨.channel p behind, rfl⟩
        refine .of_at fun b => .ahead (.ite (fun arrow => ?_) fun _ => .of_gives bare)
        refine .arrow arrow fun q r joint _ _ => .bind type fun element behind => .pure ?_
        exact ⟨.channel p (.arrow q r joint behind), rfl⟩
      case func =>
        refine .token fun t rest same => .bind tail ?_
        subst same
        obtain ⟨p, rfl⟩ := word_of_seesWord seen
        rintro _ ⟨inner, q, r, result, rfl, returns⟩
        exact .pure ⟨returns.func p inner q r, rfl⟩
      case body =>
        refine .token fun t rest same => .bind (gives_requireGroup .brace _) ?_
        subst same
        have opens : ∃ w p, t = .word w p ∧ (w = "struct" ∨ w = "interface") := by
          rcases (Bool.or_eq_true ..).mp seen with word | word
          · obtain ⟨p, rfl⟩ := word_of_seesWord word
            exact ⟨_, p, rfl, .inl rfl⟩
          · obtain ⟨p, rfl⟩ := word_of_seesWord word
            exact ⟨_, p, rfl, .inr rfl⟩
        obtain ⟨w, p, rfl, opens⟩ := opens
        rintro _ ⟨inner, q, r, rfl⟩
        exact .pure ⟨.body opens p inner q r, rfl⟩
      case name =>
        refine gives_namedType ?_
        simp only [Bool.not_eq_true, Bool.or_eq_false_iff] at noMap noChan noBody
        simp [noMap, noChan, noBody.1, noBody.2]
    · refine .bind (gives_requireGroup .paren _) ?_
      rintro _ ⟨inner, p, q, rfl⟩
      refine .of_at fun a => .ahead (.ite (fun seen => ?_) fun noGroup => ?_)
      · refine .token fun t rest same => ?_
        subst same
        obtain ⟨inner', p', q', rfl⟩ := group_of_seesGroup seen
        exact .pure ⟨inner, p, q, _, rfl, .present (.paren inner' p' q') rfl⟩
      · refine .ite (fun starts => ?_) fun _ => .of_gives (.pure ⟨inner, p, q, [], rfl, .absent⟩)
        have noFunc := noFunc_of_startsType (Bool.not_eq_true _ ▸ noGroup) starts
        refine .bind (typeAt a) fun type found => .pure ⟨inner, p, q, type, rfl, ?_⟩
        exact .present found.1 (found.noFunc noFunc)

theorem gives_declaredType : Gives AcceptedType declaredType :=
  .behind fun fuel => .of_at fun a c b d same taken => ((gives_types fuel).1 a c b d same taken).1

section Lists

variable {α : Type} {item : Parser α}

theorem gives_commaList (item : Parser α) : Gives (· ≠ []) (commaList item) :=
  .behind fun _ => .behind fun _ => .behind fun _ => .pure (List.cons_ne_nil _ _)

theorem gives_items {found : α → Prop} (one : Gives found item) :
    Gives (∀ a ∈ ·, found a) (items item) := by
  refine .behind fun a => ?_
  generalize a.length + 1 = fuel
  induction fuel with
  | zero => exact .throw _
  | succ fuel ih =>
    refine .behind fun done => .ite (.pure (List.forall_mem_nil _)) (.behind fun b => ?_)
    refine .ite (.behind fun _ => ih) (.bind one fun first holds => .bind ih fun others all => ?_)
    exact .pure (List.forall_mem_cons.mpr ⟨holds, all⟩)

end Lists

theorem TypeExpr.wellFormed_ofTokens {tokens : Tokens} (accepted : AcceptedType tokens) :
    (TypeExpr.ofTokens tokens).WellFormed := by
  unfold TypeExpr.ofTokens
  split
  · exact accepted.free_of_word
  · next other => exact ⟨accepted.ne_nil, other, accepted⟩

theorem gives_optionalType : Gives (∀ t ∈ ·, TypeExpr.WellFormed t) optionalType := by
  refine .behind fun a => .ite (.bind gives_declaredType fun tokens accepted => ?_) (.pure nofun)
  refine .pure ?_
  rintro _ ⟨⟩
  exact TypeExpr.wellFormed_ofTokens accepted

theorem gives_valueSpec : Gives ValueSpec.WellFormed valueSpec := by
  rw [valueSpec_eq]
  refine .bind (gives_commaList anyWord) fun names named => ?_
  refine .bind gives_optionalType fun type typed => ?_
  refine .behind fun values => .of_at fun a => .ite (fun _ => .of_gives (gives_refuse _ _)) ?_
  intro declares
  refine .of_gives (.pure ⟨named, ?_, typed⟩)
  cases type with
  | some t => exact .inl nofun
  | none => exact .inr (by simpa using declares)

theorem gives_valueSpecs : Gives (∀ s ∈ ·, ValueSpec.WellFormed s) valueSpecs :=
  .behind fun _ => .ite ((gives_items gives_valueSpec).inside .paren)
    (.bind gives_valueSpec fun _ wellFormed => .pure (List.forall_mem_singleton.mpr wellFormed))

theorem gives_funcTokens : Gives (SkippedKind.Keeps .func) funcTokens := by
  refine .bind (gives_optionalGroup .paren) fun receiver bound => .bind (gives_requireWord _) ?_
  rintro _ ⟨w, p, rfl⟩
  refine .bind (gives_optionalGroup .bracket) fun types generic => .behind fun fuel => ?_
  refine .bind (gives_types fuel).2 ?_
  rintro _ ⟨parameters, q, r, result, rfl, returns⟩
  refine .bind (gives_requireGroup .brace _) ?_
  rintro _ ⟨body, s, t, rfl⟩
  refine .pure ?_
  have keeps := SkippedKind.Keeps.func bound w p generic parameters q r returns body s t
  simpa using keeps

theorem gives_group (kind : SkippedKind) (noFunc : kind ≠ .func) {other : Parser Tokens}
    (otherwise : Gives kind.Keeps other) : Gives kind.Keeps (do
      if seesGroup .paren (← ahead) then return [← token] else other) := by
  refine .look (fun t rest seen => ?_) otherwise
  obtain ⟨inner, p, q, rfl⟩ := group_of_seesGroup seen
  exact .pure (.group kind noFunc inner p q)

theorem gives_typeDeclTokens : Gives (SkippedKind.Keeps .type) typeDeclTokens := by
  refine gives_group .type nofun (.bind (gives_requireWord _) ?_)
  rintro _ ⟨w, p, rfl⟩
  refine .bind gives_optionalEquals fun equals aliased => ?_
  refine .bind gives_declaredType fun type typed => .pure ?_
  exact .type w p aliased typed

theorem gives_importTokens : Gives (SkippedKind.Keeps .imports) importTokens := by
  have path (front : Tokens) (short : front.length ≤ 1) : Gives (SkippedKind.Keeps .imports) (do
      return front ++ (← require seesString "expected an import path")) := by
    refine .bind (gives_requireString _) ?_
    rintro _ ⟨text, value, p, rfl⟩
    exact .pure (.path short text value p)
  refine .of_at fun a => .ahead (.ite (fun seen => .token fun t rest same => ?_) fun _ => ?_)
  · obtain ⟨inner, p, q, rfl⟩ := group_of_seesGroup (same ▸ seen)
    exact .pure (.group .imports nofun inner p q)
  · exact .of_gives (.ite (path [] (by simp)) (.behind fun t => path [t] (by simp)))

theorem gives_topDeclaration : Gives Declaration.WellFormed topDeclaration := by
  refine .behind fun a => ?_
  split
  · exact .behind fun _ => .bind gives_valueSpecs fun _ all => .pure all
  · exact .behind fun _ => .bind gives_valueSpecs fun _ all => .pure all
  · exact .behind fun _ => .bind gives_funcTokens fun _ keeps => .pure keeps
  · exact .behind fun _ => .bind gives_typeDeclTokens fun _ keeps => .pure keeps
  · exact .behind fun _ => .bind gives_importTokens fun _ keeps => .pure keeps
  · exact gives_refuse _ _

/-- Every source that is accepted gives well-formed declarations. Each spec declares names, with a
type or with values; bare names of types are no fixed words, and other types are longer than one
word; and a declaration without values keeps the parts of its kind, in their order. -/
theorem Declaration.parse_wellFormed {source : String} {declarations : List Declaration}
    (accepted : Declaration.parse source = .ok declarations) :
    ∀ d ∈ declarations, d.WellFormed := by
  obtain ⟨tokens, -, read⟩ := parse_eq_ok.mp accepted
  obtain ⟨c, taken, -, -⟩ := readAll_eq_ok.mp read
  exact gives_items gives_topDeclaration _ _ _ taken

theorem Declaration.parse_wellFormed_of_kinds :
    let source :=
      "func (r R) f[P any](x P) <-P {}; type T = *P; import . \"m\"; var (a, b []t.U; c = 1)"
    ∃ declarations, Declaration.parse source = .ok declarations ∧ declarations.length = 4 ∧
      ∀ d ∈ declarations, d.WellFormed := by
  intro source
  have count : (Declaration.parse source).toOption.map List.length = some 4 := by decide +kernel
  cases accepted : Declaration.parse source with
  | error e =>
    rw [accepted] at count
    cases count
  | ok declarations =>
    rw [accepted] at count
    exact ⟨declarations, rfl, Option.some.inj count, parse_wellFormed accepted⟩

end GoDecl
