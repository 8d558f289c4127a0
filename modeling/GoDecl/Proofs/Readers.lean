import GoDecl.Decl.Parser

/-! What readers take. A reader that succeeds moves the cursor over tokens and changes nothing else
of it, so readers are described by the tokens ahead before and after. -/
namespace GoDecl.Grammar

/-- The cursor with other tokens ahead. -/
def Cursor.at (c : Cursor) (tokens : Tokens) : Cursor := { c with ahead := tokens }

@[simp] theorem Cursor.at_ahead (c : Cursor) (tokens : Tokens) : (c.at tokens).ahead = tokens := rfl

@[simp] theorem pure_apply {α : Type} (a : α) (c : Cursor) :
    (pure a : Parser α) c = .ok (a, c) := rfl

theorem bind_of_ok {α β : Type} {first : Parser α} {c d : Cursor} {a : α}
    (taken : first c = .ok (a, d)) (next : α → Parser β) : (first >>= next) c = next a d := by
  change (first c >>= fun p => next p.1 p.2) = next a d
  rw [taken]
  rfl

/-- What succeeds in two steps succeeds in the first. -/
theorem ok_of_bind {α β : Type} {first : Parser α} {next : α → Parser β} {c e : Cursor} {b : β}
    (taken : (first >>= next) c = .ok (b, e)) :
    ∃ a d, first c = .ok (a, d) ∧ next a d = .ok (b, e) := by
  change (first c >>= fun p => next p.1 p.2) = .ok (b, e) at taken
  cases read : first c with
  | error fault =>
    rw [read] at taken
    cases taken
  | ok p =>
    rw [read] at taken
    exact ⟨p.1, p.2, rfl, taken⟩

theorem ite_bind {α β : Type} (p : Prop) [Decidable p] (first other : Parser α)
    (next : α → Parser β) :
    (if p then first else other) >>= next = if p then first >>= next else other >>= next := by
  split <;> rfl

theorem discard_of_ok {α : Type} {first : Parser α} {c d : Cursor} {a : α}
    (taken : first c = .ok (a, d)) : discard first c = .ok ((), d) := by
  change (first c >>= fun p => pure ((), p.2)) = .ok ((), d)
  rw [taken]
  rfl

section Steps

variable {β : Type} (c : Cursor) (t : Token) (rest : Tokens)

@[simp] theorem ahead_bind (next : Tokens → Parser β) : (ahead >>= next) c = next c.ahead c := rfl

theorem ahead_at_bind (tokens : Tokens) (next : Tokens → Parser β) :
    (ahead >>= next) (c.at tokens) = next tokens (c.at tokens) := rfl

@[simp] theorem get_bind (next : Cursor → Parser β) :
    ((get : Parser Cursor) >>= next) c = next c c := rfl

theorem set_bind (d : Cursor) (next : PUnit → Parser β) :
    ((set d : Parser PUnit) >>= next) c = next () d := rfl

@[simp] theorem atEnd_bind (next : Bool → Parser β) :
    (atEnd >>= next) c = next c.ahead.isEmpty c := rfl

@[simp] theorem token_bind (next : Token → Parser β) :
    (token >>= next) (c.at (t :: rest)) = next t (c.at rest) := rfl

@[simp] theorem discard_token_bind (next : PUnit → Parser β) :
    (discard token >>= next) (c.at (t :: rest)) = next () (c.at rest) := rfl

end Steps

/-- Brackets are read apart from what follows them. -/
theorem inside_group {α : Type} (d : Delimiter) (body : Parser α) (inner rest : Tokens)
    (p q : Position) (c : Cursor) :
    inside d body (c.at (.group d inner p q :: rest)) =
      (body { ahead := inner, close := q, scope := some d, stray := c.stray }).map
        fun (a, within) =>
          (a, { c with ahead := rest, stray := within.stray <|> within.leftOver }) := by
  simp only [inside, insideThen, get_bind, Cursor.at_ahead, if_true, set_bind]
  change (body { ahead := inner, close := q, scope := some d, stray := c.stray } >>= _) = _
  cases body { ahead := inner, close := q, scope := some d, stray := c.stray } <;> rfl

/-- A reader that takes all between the brackets leaves the cursor behind them. -/
theorem inside_of_ok {α : Type} {d : Delimiter} {body : Parser α} {a : α} {inner rest : Tokens}
    {p q : Position} {c : Cursor} (taken : ∀ e : Cursor, body (e.at inner) = .ok (a, e.at [])) :
    inside d body (c.at (.group d inner p q :: rest)) = .ok (a, c.at rest) := by
  have within := taken { ahead := inner, close := q, scope := some d, stray := c.stray }
  have unspoilt : (c.stray <|> none) = c.stray := by cases c.stray <;> rfl
  have read : inside d body (c.at (.group d inner p q :: rest)) =
      .ok (a, { c with ahead := rest, stray := c.stray <|> none }) :=
    (inside_group ..).trans (congrArg _ within)
  rw [read, unspoilt]
  rfl

/-- A mark other than the first of a symbol is not the symbol. -/
@[simp] theorem seesPunct_other (first mark : Char) (symbol : List Char) (joint : Bool)
    (p : Position) (rest : Tokens) (other : first ≠ mark) :
    seesPunct (first :: symbol) (.punct mark joint p :: rest) = false := by
  cases symbol <;> cases joint <;> simp [seesPunct, readPunct?, other]

@[simp] theorem seesPunct_nil (symbol : List Char) : seesPunct symbol [] = false := by
  rcases symbol with _ | ⟨_, _ | _⟩ <;> rfl

@[simp] theorem seesPunct_literal (symbol : List Char) (l : Literal) (p : Position)
    (rest : Tokens) : seesPunct symbol (.literal l p :: rest) = false := by
  rcases symbol with _ | ⟨_, _ | _⟩ <;> rfl

@[simp] theorem seesPunct_word (symbol : List Char) (w : String) (p : Position)
    (rest : Tokens) : seesPunct symbol (.word w p :: rest) = false := by
  rcases symbol with _ | ⟨_, _ | _⟩ <;> rfl

@[simp] theorem seesPunct_group (symbol : List Char) (d : Delimiter) (inner : Tokens)
    (p q : Position) (rest : Tokens) : seesPunct symbol (.group d inner p q :: rest) = false := by
  rcases symbol with _ | ⟨_, _ | _⟩ <;> rfl

/-- A single mark is seen in the first token. -/
theorem seesPunct_first (mark : Char) (t : Token) (a b : Tokens) :
    seesPunct [mark] (t :: a) = seesPunct [mark] (t :: b) := by
  cases t with
  | punct c joint p =>
    simp only [seesPunct, readPunct?]
    split <;> rfl
  | word | literal | group => rfl

theorem punct_of_seesPunct {mark : Char} {t : Token} {a : Tokens}
    (seen : seesPunct [mark] (t :: a) = true) : ∃ joint p, t = .punct mark joint p := by
  cases t with
  | punct c joint p =>
    by_cases same : mark = c
    · exact ⟨joint, p, by rw [same]⟩
    · simp [same] at seen
  | word | literal | group => simp at seen

end GoDecl.Grammar

namespace GoDecl

open Grammar

/-- Items behind commas, one after the other, each spelled as `spell` says. -/
inductive Listed {α : Type} (spell : α → Tokens → Prop) : List α → Tokens → Prop where
  | nil : Listed spell [] []
  | cons {a : α} {items : List α} {tokens more : Tokens} (joint : Bool) (p : Position)
      (first : spell a tokens) (others : Listed spell items more) :
      Listed spell (a :: items) (.punct ',' joint p :: (tokens ++ more))

/-- A first item and others behind commas. -/
def Enumerated {α : Type} (spell : α → Tokens → Prop) (items : List α) (tokens : Tokens) : Prop :=
  ∃ a others front more, items = a :: others ∧ tokens = front ++ more ∧ spell a front ∧
    Listed spell others more

/-- A reader that takes exactly the spelling of an item where what follows is as `follow` says. -/
def Takes {α β : Type} (reader : Parser β) (spell : α → Tokens → Prop) (value : α → β)
    (follow : Tokens → Prop) : Prop :=
  ∀ a tokens, spell a tokens → ∀ c rest, follow rest →
    reader (Cursor.at c (tokens ++ rest)) = .ok (value a, c.at rest)

section Lists

variable {α β : Type} {reader : Parser β} {spell : α → Tokens → Prop} {value : α → β}
  {follow : Tokens → Prop} (takes : Takes reader spell value follow)
  (comma : ∀ joint p rest, follow (.punct ',' joint p :: rest))

include takes comma

theorem commaItems_listed {items : List α} {tokens : Tokens} (listed : Listed spell items tokens)
    (rest : Tokens) (last : follow rest) (noComma : seesPunct [','] rest = false) (fuel : Nat)
    (enough : tokens.length < fuel) (c : Cursor) :
    commaItems reader fuel (c.at (tokens ++ rest)) = .ok (items.map value, c.at rest) := by
  induction listed generalizing fuel with
  | nil =>
    obtain ⟨fuel, rfl⟩ : ∃ less, fuel = less + 1 := ⟨fuel - 1, by simp at enough; omega⟩
    simp [commaItems, noComma]
  | @cons a items tokens more joint p first others ih =>
    obtain ⟨fuel, rfl⟩ : ∃ less, fuel = less + 1 := ⟨fuel - 1, by omega⟩
    simp only [List.length_cons, List.length_append] at enough
    have later := ih fuel (by omega)
    have follows : follow (more ++ rest) := by
      cases others with
      | nil => exact last
      | cons joint p _ _ => exact comma joint p _
    have taken := takes a tokens first c (more ++ rest) follows
    have mark : seesPunct [','] (.punct ',' joint p :: (tokens ++ (more ++ rest))) = true := by
      cases joint <;> rfl
    simp only [commaItems, ahead_bind, List.cons_append, List.append_assoc, Cursor.at_ahead, mark,
      if_true, discard_token_bind, bind_of_ok taken, bind_of_ok later]
    rfl

/-- Items with commas between them, at least one. -/
theorem commaList_enumerated {items : List α} {tokens : Tokens}
    (enumerated : Enumerated spell items tokens) (rest : Tokens) (last : follow rest)
    (noComma : seesPunct [','] rest = false) (c : Cursor) :
    commaList reader (c.at (tokens ++ rest)) = .ok (items.map value, c.at rest) := by
  obtain ⟨a, others, front, more, rfl, rfl, first, listed⟩ := enumerated
  have follows : follow (more ++ rest) := by
    cases listed with
    | nil => exact last
    | cons joint p _ _ => exact comma joint p _
  have taken := takes a front first c (more ++ rest) follows
  have later := commaItems_listed takes comma listed rest last noComma
    ((more ++ rest).length + 1) (by simp only [List.length_append]; omega) c
  simp only [commaList, List.append_assoc, bind_of_ok taken, ahead_bind, Cursor.at_ahead,
    bind_of_ok later]
  rfl

end Lists

/-- An item that is one token. -/
def Spells {α : Type} (make : α → Position → Token) (a : α) (tokens : Tokens) : Prop :=
  ∃ p, tokens = [make a p]

theorem anyWord_takes {α : Type} (name : α → String) :
    Takes anyWord (Spells fun a => .word (name a)) name fun _ => True := by
  rintro a tokens ⟨p, rfl⟩ c rest -
  rfl

/-- The type behind the names of a spec, if there is one. -/
def optionalType : Parser (Option TypeExpr) := do
  let a ← ahead
  if startsType a || seesWord "func" a then return some (TypeExpr.ofTokens (← declaredType))
  else return none

/-- The values behind an equals sign, if there is one. -/
def initialisers : Parser (List Expr) := do
  if seesPunct ['='] (← ahead) then
    discard token
    commaList expression
  else return []

/-- A spec is read in three parts. -/
theorem valueSpec_eq : valueSpec = (do
    let names ← commaList anyWord
    let type ← optionalType
    let values ← initialisers
    if type.isNone && values.isEmpty then refuse "expected a type or `=` after the declared names"
    else return { names, type, values }) := by
  simp only [valueSpec, optionalType, initialisers, bind_assoc, ite_bind, pure_bind]

/-- What follows the keyword of a declaration without values. -/
def skippedTokens : SkippedKind → Parser Tokens
  | .func => funcTokens
  | .type => typeDeclTokens
  | .imports => importTokens

theorem topDeclaration_valueWord (keyword : ValueKeyword) (p : Position) (a : Tokens) (c : Cursor) :
    topDeclaration (c.at (.word keyword.text p :: a)) =
      (valueSpecs >>= fun specs => pure (Declaration.value keyword specs)) (c.at a) := by
  cases keyword <;> rfl

theorem topDeclaration_skippedWord (kind : SkippedKind) (p : Position) (a : Tokens) (c : Cursor) :
    topDeclaration (c.at (.word kind.text p :: a)) =
      (skippedTokens kind >>= fun tokens => pure (Declaration.skipped kind tokens)) (c.at a) := by
  cases kind <;> rfl

/-- A declaration begins with one of the words for it. -/
theorem topDeclaration_cases {c d : Cursor} {declaration : Declaration}
    (read : topDeclaration c = .ok (declaration, d)) :
    (∃ (keyword : ValueKeyword) (p : Position) (a : Tokens), c = c.at (.word keyword.text p :: a)) ∨
      ∃ (kind : SkippedKind) (p : Position) (a : Tokens), c = c.at (.word kind.text p :: a) := by
  obtain ⟨tokens, close, scope, stray⟩ := c
  simp only [topDeclaration, ahead_bind] at read
  split at read
  next p a => exact .inl ⟨.var, p, a, rfl⟩
  next p a => exact .inl ⟨.const, p, a, rfl⟩
  next p a => exact .inr ⟨.func, p, a, rfl⟩
  next p a => exact .inr ⟨.type, p, a, rfl⟩
  next p a => exact .inr ⟨.imports, p, a, rfl⟩
  next => cases read

section Items

variable {α : Type} (item : Parser α) (n : Nat) (c : Cursor)

theorem itemsFrom_end : itemsFrom item (n + 1) (c.at []) = .ok ([], c.at []) := rfl

theorem itemsFrom_semicolon (joint : Bool) (p : Position) (a : Tokens) :
    itemsFrom item (n + 1) (c.at (.punct ';' joint p :: a)) = itemsFrom item n (c.at a) := by
  cases joint <;> rfl

theorem itemsFrom_item {t : Token} {a : Tokens} (noMark : seesPunct [';'] (t :: a) = false) :
    itemsFrom item (n + 1) (c.at (t :: a)) =
      (do let first ← item; return first :: (← itemsFrom item n)) (c.at (t :: a)) := by
  have more : (c.at (t :: a)).ahead.isEmpty = false := rfl
  simp only [itemsFrom, atEnd_bind, more, ahead_at_bind, noMark, Bool.false_eq_true, if_false]

theorem itemsFrom_word (w : String) (p : Position) (a : Tokens) :
    itemsFrom item (n + 1) (c.at (.word w p :: a)) =
      (do let first ← item; return first :: (← itemsFrom item n)) (c.at (.word w p :: a)) :=
  itemsFrom_item item n c (seesPunct_word ..)

variable {item n c}

/-- The three ways in which items go on: at the end, over a semicolon and with an item. -/
theorem itemsFrom_cases {items : List α} {d : Cursor} (read : itemsFrom item n c = .ok (items, d)) :
    ∃ k, n = k + 1 ∧ ((c = c.at [] ∧ items = [] ∧ d = c) ∨
      (∃ joint p a, c = c.at (.punct ';' joint p :: a) ∧
        itemsFrom item k (c.at a) = .ok (items, d)) ∨
      ∃ t a first others e, c = c.at (t :: a) ∧ seesPunct [';'] (t :: a) = false ∧
        items = first :: others ∧ item c = .ok (first, e) ∧
        itemsFrom item k e = .ok (others, d)) := by
  obtain ⟨tokens, close, scope, stray⟩ := c
  cases n with
  | zero => cases read
  | succ k =>
    refine ⟨k, rfl, ?_⟩
    cases tokens with
    | nil =>
      cases read
      exact .inl ⟨rfl, rfl, rfl⟩
    | cons t a =>
      let c : Cursor := ⟨t :: a, close, scope, stray⟩
      change itemsFrom item (k + 1) (c.at (t :: a)) = _ at read
      cases mark : seesPunct [';'] (t :: a) with
      | true =>
        obtain ⟨joint, p, rfl⟩ := punct_of_seesPunct mark
        rw [itemsFrom_semicolon] at read
        exact .inr (.inl ⟨joint, p, a, rfl, read⟩)
      | false =>
        rw [itemsFrom_item item k c mark] at read
        obtain ⟨first, e, one, rest⟩ := ok_of_bind read
        obtain ⟨others, _, more, ⟨⟩⟩ := ok_of_bind rest
        exact .inr (.inr ⟨t, a, first, others, e, rfl, mark, rfl, one, more⟩)

end Items

/-- A reading of all tokens succeeds where it leaves nothing, neither ahead nor in a group. -/
theorem readAll_eq_ok {α : Type} {reader : Parser α} {tokens : Tokens} {a : α} :
    Grammar.readAll reader tokens = .ok a ↔
      ∃ c, reader { ahead := tokens } = .ok (a, c) ∧ c.ahead = [] ∧ c.stray = none := by
  unfold Grammar.readAll StateT.run
  constructor
  · intro read
    cases run : reader { ahead := tokens } with
    | error fault =>
      rw [run] at read
      cases read
    | ok result =>
      obtain ⟨b, ahead, close, scope, stray⟩ := result
      rw [run] at read
      cases stray <;> cases ahead <;> cases read
      exact ⟨_, rfl, rfl, rfl⟩
  · rintro ⟨⟨_, close, scope, _⟩, run, rfl, rfl⟩
    rw [run]
    rfl

end GoDecl
