import GoDecl.Proofs.Readers
import GoDecl.Proofs.Slots

/-! Sources one after the other and in one batch. Where the first ends, its readers saw the end and
now see a semicolon, and that makes no difference to them: each goes the same way over the same
tokens. -/
namespace GoDecl

open Grammar

namespace Grammar

/-- The cursor with tokens put behind all that is ahead. -/
def Cursor.before (c : Cursor) (tail : Tokens) : Cursor := c.at (c.ahead ++ tail)

/-- The cursor moved over tokens in front of it, within its group. -/
structure Moved (c d : Cursor) : Prop where
  left : d.ahead <:+ c.ahead
  close : d.close = c.close
  scope : d.scope = c.scope

theorem Moved.refl (c : Cursor) : Moved c c := ⟨List.suffix_rfl, rfl, rfl⟩

theorem Moved.trans {c d e : Cursor} (one : Moved c d) (other : Moved d e) : Moved c e :=
  ⟨other.left.trans one.left, other.close.trans one.close, other.scope.trans one.scope⟩

/-- Tokens that begin with a semicolon. -/
def BehindSemicolon (tail : Tokens) : Prop := ∃ joint p more, tail = .punct ';' joint p :: more

/-- Tokens off whose front an expression is read in the same way where more tokens follow them
behind a semicolon. -/
def ReadsOn (a : Tokens) : Prop :=
  ∀ (c : Cursor) e d, expression (c.at a) = .ok (e, d) → Moved (c.at a) d ∧
    ∀ tail, BehindSemicolon tail → expression ((c.at a).before tail) = .ok (e, d.before tail)

/-- What is seen in front of a semicolon is seen at the end. -/
def Steady {α : Type} (sees : Tokens → α) : Prop :=
  ∀ tail, BehindSemicolon tail → ∀ a, sees (a ++ tail) = sees a

theorem steady_of_first {sees : Tokens → Bool} (same : ∀ t a b, sees (t :: a) = sees (t :: b))
    (none : ∀ joint p more, sees (.punct ';' joint p :: more) = sees []) : Steady sees := by
  rintro _ ⟨joint, p, more, rfl⟩ a
  cases a with
  | nil => exact none joint p more
  | cons t a => exact same t _ _

theorem steady_anyWord : Steady seesAnyWord :=
  steady_of_first (fun t _ _ => by cases t <;> rfl) fun _ _ _ => rfl

theorem steady_word (w : String) : Steady (seesWord w) :=
  steady_of_first (fun t _ _ => by cases t <;> rfl) fun _ _ _ => rfl

theorem steady_group (d : Delimiter) : Steady (seesGroup d) :=
  steady_of_first (fun t _ _ => by cases t <;> rfl) fun _ _ _ => rfl

theorem steady_declarationWord : Steady seesDeclarationWord :=
  steady_of_first (fun t _ _ => by cases t <;> rfl) fun _ _ _ => rfl

theorem steady_string : Steady seesString := by
  refine steady_of_first (fun t _ _ => ?_) fun _ _ _ => rfl
  cases t with
  | literal l p => cases l <;> rfl
  | word | punct | group => rfl

/-- A symbol that is cut off at the end is none with a semicolon behind it. -/
theorem steady_punct {symbol : List Char} (other : ';' ∉ symbol) : Steady (seesPunct symbol) := by
  rintro _ ⟨joint, p, more, rfl⟩ a
  induction symbol generalizing a with
  | nil => cases a <;> rfl
  | cons c symbol ih =>
    simp only [List.mem_cons, not_or] at other
    obtain ⟨noMark, others⟩ := other
    cases a with
    | nil => simp [Ne.symm noMark]
    | cons t a =>
      cases t with
      | word | literal | group => simp
      | punct d joined q =>
        cases symbol with
        | nil => exact seesPunct_first ..
        | cons c' symbol =>
          cases joined with
          | false => rfl
          | true =>
            have later := ih others a
            simp only [seesPunct] at later
            simp only [seesPunct, List.cons_append, readPunct?]
            split
            · simpa using later
            · rfl

theorem steady_arrow : Steady seesArrow := steady_punct (by decide)

theorem steady_startsType : Steady startsType := by
  intro tail apart a
  have noStar := steady_punct (show ';' ∉ ['*'] by decide) tail apart
  simp only [startsType, steady_group _ tail apart, noStar, steady_arrow tail apart,
    steady_anyWord tail apart, steady_declarationWord tail apart]

/-- Where `first` succeeds on an end of `whole`, `second` goes the same way with `behind` put behind
it. The two differ at most in their fuel. -/
def Follows {α : Type} (whole behind : Tokens) (first second : Parser α) : Prop :=
  ∀ c a d, c.ahead <:+ whole → first c = .ok (a, d) →
    Moved c d ∧ second (c.before behind) = .ok (a, d.before behind)

/-- A reader that goes the same way with more behind. -/
abbrev Unaware {α : Type} (whole behind : Tokens) (reader : Parser α) : Prop :=
  Follows whole behind reader reader

section Runs

variable {α β : Type} {whole behind : Tokens}

theorem Follows.pure (a : α) : Unaware whole behind (pure a) := by
  rintro c _ _ - ⟨⟩
  exact ⟨.refl c, rfl⟩

theorem Follows.bind {first second : Parser α} {next next' : α → Parser β}
    (before : Follows whole behind first second)
    (after : ∀ a, Follows whole behind (next a) (next' a)) :
    Follows whole behind (first >>= next) (second >>= next') := by
  intro c b e within read
  obtain ⟨a, d, one, other⟩ := ok_of_bind read
  obtain ⟨moved, same⟩ := before c a d within one
  obtain ⟨movedOn, sameOn⟩ := after a d b e (moved.left.trans within) other
  exact ⟨moved.trans movedOn, (bind_of_ok same _).trans sameOn⟩

/-- A reader that never succeeds is followed by any. -/
theorem Follows.of_error {first : Parser α} (second : Parser α)
    (fails : ∀ c, ∃ fault, first c = .error fault) : Follows whole behind first second := by
  intro c a d _ read
  obtain ⟨fault, failed⟩ := fails c
  rw [failed] at read
  cases read

theorem follows_refuse (message : String) (second : Parser α) :
    Follows whole behind (refuse message) second := .of_error second fun _ => ⟨_, rfl⟩

theorem Follows.ite {condition : Prop} [Decidable condition]
    {first second first' second' : Parser α} (yes : Follows whole behind first first')
    (no : Follows whole behind second second') :
    Follows whole behind (if condition then first else second)
      (if condition then first' else second') := by
  split
  · exact yes
  · exact no

theorem Follows.ahead {next next' : Tokens → Parser α}
    (same : ∀ a, Follows whole behind (next a) (next' (a ++ behind))) :
    Follows whole behind (ahead >>= next) (ahead >>= next') := by
  intro c b d within read
  exact same c.ahead c b d within read

/-- A look at what is ahead turns out the same. -/
theorem Follows.look (apart : BehindSemicolon behind) {sees : Tokens → Bool} (steady : Steady sees)
    {first second first' second' : Parser α} (yes : Follows whole behind first first')
    (no : Follows whole behind second second') :
    Follows whole behind (do if sees (← Grammar.ahead) then first else second)
      (do if sees (← Grammar.ahead) then first' else second') := by
  refine .ahead fun a => ?_
  rw [steady behind apart]
  exact .ite yes no

theorem unaware_token : Unaware whole behind token := by
  intro c t d _ read
  obtain ⟨ahead, close, scope, stray⟩ := c
  cases ahead with
  | nil => cases read
  | cons u rest =>
    cases read
    exact ⟨⟨List.suffix_cons _ _, rfl, rfl⟩, rfl⟩

theorem unaware_discard_token : Unaware whole behind (discard token) :=
  .bind unaware_token fun _ => .pure ()

/-- A reader that goes on as another one behind its first token. -/
theorem Follows.behind_token {reader next : Parser α} (follows : Unaware whole behind next)
    {t : Token} (goesOn : ∀ (c : Cursor) a, reader (c.at (t :: a)) = next (c.at a)) {c d : Cursor}
    {a : Tokens} {result : α} (within : t :: a <:+ whole)
    (read : reader (c.at (t :: a)) = .ok (result, d)) :
    Moved (c.at (t :: a)) d ∧
      reader ((c.at (t :: a)).before behind) = .ok (result, d.before behind) := by
  have shorter : a <:+ t :: a := List.suffix_cons t a
  rw [goesOn] at read
  obtain ⟨moved, same⟩ := follows (c.at a) result d (shorter.trans within) read
  exact ⟨⟨moved.left.trans shorter, moved.close, moved.scope⟩, (goesOn c _).trans same⟩

/-- What is between brackets stays the same. -/
theorem unaware_inside (d : Delimiter) (body : Parser α) :
    Unaware whole behind (inside d body) := by
  intro c a e _ read
  obtain ⟨ahead, close, scope, stray⟩ := c
  match ahead with
  | [] => cases read
  | .word .. :: _ => cases read
  | .punct .. :: _ => cases read
  | .literal .. :: _ => cases read
  | .group b inner p q :: rest =>
    by_cases same : b = d
    · subst same
      let c : Cursor := ⟨[], close, scope, stray⟩
      have enters (rest : Tokens) := inside_group b body inner rest p q c
      change inside b body (c.at (.group b inner p q :: rest)) = _ at read
      rw [enters] at read
      cases within : body ⟨inner, q, some b, stray⟩ with
      | error fault =>
        rw [within] at read
        cases read
      | ok found =>
        rw [within] at read
        cases read
        refine ⟨⟨List.suffix_cons _ _, rfl, rfl⟩, ?_⟩
        change inside b body (c.at (.group b inner p q :: (rest ++ behind))) = _
        rw [enters, within]
        rfl
    · simp only [inside, insideThen, get_bind, same, if_false] at read
      cases read

theorem unaware_anyWord : Unaware whole behind anyWord := by
  refine .ahead fun a => ?_
  match a with
  | .word w p :: _ => exact .bind unaware_discard_token fun _ => .pure w
  | [] | .punct .. :: _ | .literal .. :: _ | .group .. :: _ => exact follows_refuse _ _

end Runs

end Grammar

section Types

variable {whole behind : Tokens}

theorem unaware_arrow : Unaware whole behind arrow :=
  .bind unaware_token fun _ => .bind unaware_token fun _ => .pure _

theorem follows_typeFuel {α : Type} {next next' : Nat → Parser α}
    (same : ∀ n m, n ≤ m → Follows whole behind (next n) (next' m)) :
    Follows whole behind (typeFuel >>= next) (typeFuel >>= next') := by
  simp only [typeFuel, bind_assoc, pure_bind]
  refine .ahead fun a => same _ _ ?_
  simp only [List.length_append]
  omega

variable (apart : BehindSemicolon behind)

include apart

theorem unaware_require {sees : Tokens → Bool} (steady : Steady sees) (complaint : String) :
    Unaware whole behind (require sees complaint) :=
  .look apart steady (.bind unaware_token fun t => .pure [t]) (follows_refuse complaint _)

theorem unaware_optionalToken {sees : Tokens → Bool} (steady : Steady sees) :
    Unaware whole behind (optionalToken sees) :=
  .look apart steady (.bind unaware_token fun t => .pure [t]) (.pure [])

theorem unaware_namedType : Unaware whole behind namedType := by
  refine .ahead fun a => ?_
  rw [steady_anyWord behind apart, steady_declarationWord behind apart]
  refine .ite (follows_refuse _ _) (.bind unaware_token fun base => ?_)
  have arguments (qualified : Tokens) : Unaware whole behind (do
      return base :: qualified ++ (← optionalToken (seesGroup .bracket))) :=
    .bind (unaware_optionalToken apart (steady_group .bracket)) fun _ => .pure _
  refine .look apart (steady_punct (by decide)) (.bind unaware_token fun point => ?_) (arguments [])
  exact .bind (unaware_require apart steady_anyWord _) fun name => arguments (point :: name)

/-- Fuel that suffices before suffices with more behind. -/
theorem follows_types {n m : Nat} (more : n ≤ m) :
    Follows whole behind (typeTokens n) (typeTokens m) ∧
      Follows whole behind (signature n) (signature m) := by
  induction n generalizing m with
  | zero => exact ⟨.of_error _ fun _ => ⟨_, rfl⟩, .of_error _ fun _ => ⟨_, rfl⟩⟩
  | succ n ih =>
    obtain ⟨m, rfl⟩ := Nat.exists_eq_succ_of_ne_zero (show m ≠ 0 by omega)
    obtain ⟨type, tail⟩ := ih (Nat.le_of_succ_le_succ more)
    have star := steady_punct (show ';' ∉ ['*'] by decide) behind apart
    have require (d : Delimiter) (complaint : String) :
        Unaware whole behind (require (seesGroup d) complaint) :=
      unaware_require apart (steady_group d) complaint
    have typeBehind (front : Tokens) : Follows whole behind
        (do return front ++ (← typeTokens n)) (do return front ++ (← typeTokens m)) :=
      .bind type fun _ => .pure _
    constructor
    · refine .ahead fun a => ?_
      simp only [steady_group _ behind apart, star, steady_arrow behind apart,
        steady_word _ behind apart]
      -- In the order of the reader: parentheses, arrays and pointers, arrows, maps, channels,
      -- functions, types with a body, and names.
      refine .ite (.bind unaware_token fun _ => .pure _) ?_
      refine .ite (.bind unaware_token fun t => typeBehind [t]) ?_
      refine .ite (.bind unaware_arrow typeBehind) ?_
      refine .ite (.bind unaware_token fun t => .bind (require _ _) fun key => ?_) ?_
      · exact typeBehind (t :: key)
      refine .ite (.bind unaware_token fun t => ?_) ?_
      · exact .look apart steady_arrow (.bind unaware_arrow fun marks => typeBehind (t :: marks))
          (.bind (.pure []) fun marks => typeBehind (t :: marks))
      refine .ite (.bind unaware_token fun _ => .bind tail fun _ => .pure _) ?_
      refine .ite (.bind unaware_token fun _ => .bind (require _ _) fun _ => .pure _) ?_
      exact unaware_namedType apart
    · refine .bind (require _ _) fun parameters => .ahead fun a => ?_
      simp only [steady_group _ behind apart, steady_startsType behind apart]
      exact .ite (.bind unaware_token fun _ => .pure _) (.ite (typeBehind parameters) (.pure _))

theorem unaware_declaredType : Unaware whole behind declaredType :=
  follows_typeFuel fun _ _ more => (follows_types apart more).1

end Types

section Lists

variable {α : Type} {whole behind : Tokens} (apart : BehindSemicolon behind) {item : Parser α}
  (unaware : Unaware whole behind item)

include apart unaware

theorem follows_commaItems {n m : Nat} (more : n ≤ m) :
    Follows whole behind (commaItems item n) (commaItems item m) := by
  induction n generalizing m with
  | zero => exact .of_error _ fun _ => ⟨_, rfl⟩
  | succ n ih =>
    obtain ⟨m, rfl⟩ := Nat.exists_eq_succ_of_ne_zero (show m ≠ 0 by omega)
    have others := ih (Nat.le_of_succ_le_succ more)
    refine .look apart (steady_punct (by decide)) ?_ (.pure [])
    refine .bind unaware_discard_token fun _ => .bind unaware fun _ => ?_
    exact .bind others fun _ => .pure _

theorem unaware_commaList : Unaware whole behind (commaList item) := by
  refine .bind unaware fun _ => .ahead fun a => ?_
  refine .bind (follows_commaItems apart unaware ?_) fun _ => .pure _
  simp only [List.length_append]
  omega

end Lists

section Declarations

variable {whole behind : Tokens} (apart : BehindSemicolon behind)
  (readsOn : ∀ a, a <:+ whole → ReadsOn a)

include apart

theorem unaware_funcTokens : Unaware whole behind funcTokens := by
  refine .bind (unaware_optionalToken apart (steady_group _)) fun receiver => ?_
  refine .bind (unaware_require apart steady_anyWord _) fun name => ?_
  refine .bind (unaware_optionalToken apart (steady_group _)) fun types => ?_
  refine follows_typeFuel fun n m more => .bind (follows_types apart more).2 fun head => ?_
  exact .bind (unaware_require apart (steady_group _) _) fun body => .pure _

theorem unaware_typeDeclTokens : Unaware whole behind typeDeclTokens := by
  refine .look apart (steady_group _) (.bind unaware_token fun _ => .pure _) ?_
  refine .bind (unaware_require apart steady_anyWord _) fun name => ?_
  refine .bind (unaware_optionalToken apart (steady_punct (by decide))) fun equals => ?_
  exact .bind (unaware_declaredType apart) fun type => .pure _

theorem unaware_importTokens : Unaware whole behind importTokens := by
  have path (name : Tokens) : Unaware whole behind (do
      return name ++ (← require seesString "expected an import path")) :=
    .bind (unaware_require apart steady_string _) fun _ => .pure _
  refine .ahead fun a => ?_
  rw [steady_group _ behind apart, steady_string behind apart]
  refine .ite (.bind unaware_token fun _ => .pure _) (.ite (.bind (.pure []) path) ?_)
  exact .bind unaware_token fun t => .bind (.pure [t]) path

theorem unaware_skippedTokens (kind : SkippedKind) : Unaware whole behind (skippedTokens kind) := by
  cases kind with
  | func => exact unaware_funcTokens apart
  | type => exact unaware_typeDeclTokens apart
  | imports => exact unaware_importTokens apart

theorem unaware_optionalType : Unaware whole behind optionalType := by
  refine .ahead fun a => ?_
  rw [steady_startsType behind apart, steady_word _ behind apart]
  exact .ite (.bind (unaware_declaredType apart) fun _ => .pure _) (.pure none)

include readsOn

theorem unaware_expression : Unaware whole behind expression := by
  intro c e d within read
  obtain ⟨moved, same⟩ := readsOn c.ahead within c e d read
  exact ⟨moved, same behind apart⟩

theorem unaware_initialisers : Unaware whole behind initialisers := by
  have values := unaware_commaList apart (unaware_expression apart readsOn)
  refine .look apart (steady_punct (by decide)) ?_ (.pure [])
  exact .bind unaware_discard_token fun _ => values

theorem unaware_valueSpec : Unaware whole behind valueSpec := by
  rw [valueSpec_eq]
  refine .bind (unaware_commaList apart unaware_anyWord) fun names => ?_
  refine .bind (unaware_optionalType apart) fun type => ?_
  refine .bind (unaware_initialisers apart readsOn) fun values => ?_
  exact .ite (follows_refuse _ _) (.pure _)

theorem unaware_valueSpecs : Unaware whole behind valueSpecs := by
  refine .look apart (steady_group _) (unaware_inside _ _) ?_
  exact .bind (unaware_valueSpec apart readsOn) fun _ => .pure _

theorem unaware_topDeclaration : Unaware whole behind topDeclaration := by
  intro c declaration d within read
  rcases topDeclaration_cases read with ⟨keyword, p, a, same⟩ | ⟨kind, p, a, same⟩
  · rw [same] at within read ⊢
    exact Follows.behind_token (.bind (unaware_valueSpecs apart readsOn) fun _ => .pure _)
      (fun c a => topDeclaration_valueWord keyword p a c) within read
  · rw [same] at within read ⊢
    exact Follows.behind_token (.bind (unaware_skippedTokens apart kind) fun _ => .pure _)
      (fun c a => topDeclaration_skippedWord kind p a c) within read

end Declarations

/-- More fuel than suffices changes nothing. -/
theorem itemsFrom_mono {α : Type} {item : Parser α} {n m : Nat} (more : n ≤ m) {c d : Cursor}
    {items : List α} (read : itemsFrom item n c = .ok (items, d)) :
    itemsFrom item m c = .ok (items, d) := by
  induction n generalizing m c items with
  | zero => cases read
  | succ n ih =>
    obtain ⟨m, rfl⟩ := Nat.exists_eq_succ_of_ne_zero (show m ≠ 0 by omega)
    obtain ⟨_, ⟨⟩, ⟨atEnd, rfl, same⟩ | ⟨joint, p, a, mark, read⟩ |
      ⟨t, a, first, others, e, some, noMark, rfl, one, read⟩⟩ := itemsFrom_cases read
    · rw [same, atEnd]
      exact itemsFrom_end item m c
    · rw [mark, itemsFrom_semicolon]
      exact ih (Nat.le_of_succ_le_succ more) read
    · rw [some, itemsFrom_item item m c noMark, ← some, bind_of_ok one,
        bind_of_ok (ih (Nat.le_of_succ_le_succ more) read)]
      rfl

theorem itemsFrom_moved {α : Type} {item : Parser α} {whole behind : Tokens}
    (unaware : Unaware whole behind item) {n : Nat} {c d : Cursor} {items : List α}
    (within : c.ahead <:+ whole) (read : itemsFrom item n c = .ok (items, d)) : Moved c d := by
  induction n generalizing c items with
  | zero => cases read
  | succ n ih =>
    obtain ⟨_, ⟨⟩, ⟨-, -, rfl⟩ | ⟨joint, p, a, mark, read⟩ |
      ⟨t, a, first, others, e, some, noMark, rfl, one, read⟩⟩ := itemsFrom_cases read
    · exact .refl d
    · rw [mark] at within ⊢
      have shorter : a <:+ .punct ';' joint p :: a := List.suffix_cons _ a
      obtain ⟨left, close, scope⟩ := ih (shorter.trans within) read
      exact ⟨left.trans shorter, close, scope⟩
    · have moved := (unaware c first e within one).1
      exact moved.trans (ih (moved.left.trans within) read)

/-- Where the items of a row are at an end, those behind the semicolon follow. -/
theorem itemsFrom_append {α : Type} {item : Parser α} {whole more : Tokens} {joint : Bool}
    {p : Position} (unaware : Unaware whole (.punct ';' joint p :: more) item) {n : Nat}
    {c d e : Cursor} {first second : List α} (within : c.ahead <:+ whole)
    (read : itemsFrom item n c = .ok (first, d))
    (later : itemsFrom item (more.length + 1) (d.at more) = .ok (second, e)) {m : Nat}
    (enough : n + more.length < m) :
    itemsFrom item m (c.before (.punct ';' joint p :: more)) = .ok (first ++ second, e) := by
  -- Each step of the first row is one here too, so its fuel is used up where the semicolon comes
  -- and the rest suffices for what is behind it.
  induction n generalizing m c first with
  | zero => cases read
  | succ n ih =>
    obtain ⟨m, rfl⟩ := Nat.exists_eq_succ_of_ne_zero (show m ≠ 0 by omega)
    obtain ⟨_, ⟨⟩, ⟨atEnd, rfl, same⟩ | ⟨joint, q, a, mark, read⟩ |
      ⟨t, a, one, others, e', some, noMark, rfl, taken, read⟩⟩ := itemsFrom_cases read
    · rw [atEnd]
      refine (itemsFrom_semicolon item m c joint p more).trans (itemsFrom_mono ?_ (same ▸ later))
      omega
    · rw [mark] at within ⊢
      refine (itemsFrom_semicolon item m c joint q _).trans ?_
      have shorter : (c.at a).ahead <:+ whole := (List.suffix_cons _ a).trans within
      exact ih shorter read (by omega)
    · obtain ⟨moved, sameOne⟩ := unaware c one e' within taken
      have others := ih (moved.left.trans within) read (show n + more.length < m by omega)
      rw [some] at sameOne ⊢
      refine (itemsFrom_item item m c ((seesPunct_first ..).trans noMark)).trans ?_
      refine (bind_of_ok sameOne _).trans ?_
      rw [bind_of_ok others]
      rfl

/-- Declarations in two parts are evaluated part by part. -/
theorem evalDeclarations_append (settings : Settings) (first second : List Declaration)
    (env : Environment) :
    let one := evalDeclarations settings first env
    let other := evalDeclarations settings second one.env
    evalDeclarations settings (first ++ second) env =
      { answer := one.answer ++ other.answer, env := other.env
        events := one.events ++ other.events } := by
  induction first generalizing env with
  | nil => rfl
  | cons d first ih =>
    simp [evalDeclarations, bind, Action.andThen, pure, Action.answer, ih]

theorem readAll_append {first second : Tokens} {before after : List Declaration}
    (readsOn : ∀ a, a <:+ first → ReadsOn a) (readFirst : Declaration.readAll first = .ok before)
    (readSecond : Declaration.readAll second = .ok after) (joint : Bool) (p : Position) :
    Declaration.readAll (first ++ .punct ';' joint p :: second) = .ok (before ++ after) := by
  have unaware := unaware_topDeclaration ⟨joint, p, second, rfl⟩ readsOn
  obtain ⟨c, one, endsFirst, cleanFirst⟩ := readAll_eq_ok.mp readFirst
  obtain ⟨d, other, endsSecond, cleanSecond⟩ := readAll_eq_ok.mp readSecond
  have moved : Moved { ahead := first } c := itemsFrom_moved unaware List.suffix_rfl one
  have fresh : c.at second = { ahead := second } := by
    obtain ⟨_, _, _, _⟩ := c
    cases moved.close
    cases moved.scope
    cases cleanFirst
    rfl
  have later : itemsFrom topDeclaration (second.length + 1) (c.at second) = .ok (after, d) :=
    fresh ▸ other
  have both : items topDeclaration { ahead := first ++ .punct ';' joint p :: second } =
      .ok (before ++ after, d) := by
    refine itemsFrom_append unaware (List.suffix_refl first) one later ?_
    simp only [List.length_append, List.length_cons]
    omega
  exact readAll_eq_ok.mpr ⟨d, both, endsSecond, cleanSecond⟩

/-- Batches do not matter. Two sources that can be read are read as one with a semicolon between
them, and that evaluates like one after the other: the same slots, the same table, the same
events. -/
theorem readAll_in_one_batch {first second : Tokens} {before after : List Declaration}
    (readsOn : ∀ a, a <:+ first → ReadsOn a) (readFirst : Declaration.readAll first = .ok before)
    (readSecond : Declaration.readAll second = .ok after) (joint : Bool) (p : Position) :
    Declaration.readAll (first ++ .punct ';' joint p :: second) = .ok (before ++ after) ∧
      ∀ settings env,
        let one := evalDeclarations settings before env
        let other := evalDeclarations settings after one.env
        evalDeclarations settings (before ++ after) env =
          { answer := one.answer ++ other.answer, env := other.env
            events := one.events ++ other.events } :=
  ⟨readAll_append readsOn readFirst readSecond joint p,
    fun settings env => evalDeclarations_append settings before after env⟩

/-- `var a = 1` and `var b = a`. Off the ends of the first, expressions are read as `var`, as the
assignment `a = 1` and as `1`, or not at all. -/
theorem readAll_in_one_batch_of_names :
    let word (w : String) : Token := .word w {}
    let mark (c : Char) : Token := .punct c false {}
    let one : Token := .literal (.int "1") {}
    let first := [word "var", word "a", mark '=', one]
    let second := [word "var", word "b", mark '=', word "a"]
    let declared (name : String) (e : Expr) : Declaration :=
      .value .var [{ names := [name], type := none, values := [e] }]
    let before := [declared "a" (.literal (.int "1"))]
    let after := [declared "b" (.name "a")]
    (∀ a, a <:+ first → ReadsOn a) ∧ Declaration.readAll first = .ok before ∧
      Declaration.readAll second = .ok after ∧
      Declaration.readAll (first ++ mark ';' :: second) = .ok (before ++ after) ∧
      (evalDeclarations {} (before ++ after) {}).answer = [some (.int 1), some (.int 1)] := by
  intro word mark one first second declared before after
  have readsOn : ∀ a, a <:+ first → ReadsOn a := by
    simp only [first, List.suffix_cons_iff, List.suffix_nil]
    rintro a (rfl | rfl | rfl | rfl | rfl) c e d read
    · cases read
      exact ⟨⟨List.suffix_cons _ _, rfl, rfl⟩, fun _ _ => rfl⟩
    · cases read
      refine ⟨⟨List.nil_suffix, rfl, rfl⟩, ?_⟩
      rintro _ ⟨joint, p, more, rfl⟩
      cases joint <;> rfl
    · cases read
    · cases read
      refine ⟨⟨List.nil_suffix, rfl, rfl⟩, ?_⟩
      rintro _ ⟨joint, p, more, rfl⟩
      cases joint <;> rfl
    · cases read
  have readFirst : Declaration.readAll first = .ok before := rfl
  have readSecond : Declaration.readAll second = .ok after := rfl
  obtain ⟨read, evaluated⟩ := readAll_in_one_batch readsOn readFirst readSecond false {}
  refine ⟨readsOn, readFirst, readSecond, read, ?_⟩
  rw [evaluated]
  rfl

end GoDecl
