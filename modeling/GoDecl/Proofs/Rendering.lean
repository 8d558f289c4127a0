import GoDecl.Proofs.Precedence
import GoDecl.Proofs.TypeForms

/-! How declarations are written down. The tokens of values may stand at any places and semicolons
in any number around items; types and what is skipped are kept with their tokens. -/
namespace GoDecl

open Grammar

def TypeExpr.Sound : TypeExpr → Prop
  | .name n => n ∉ typeWords
  | .composite tokens => TypeForm tokens ∧ ∀ w p, tokens ≠ [.word w p]

structure ValueSpec.Sound (s : ValueSpec) : Prop where
  named : s.names ≠ []
  typed : ∀ t ∈ s.type, t.Sound
  valued : ∀ e ∈ s.values, e.Grouped
  /-- Names alone declare nothing. -/
  declares : s.type ≠ none ∨ s.values ≠ []

/-- An equals sign, or nothing. -/
inductive OptionalEquals : Tokens → Prop where
  | absent : OptionalEquals []
  | present (joint : Bool) (p : Position) : OptionalEquals [.punct '=' joint p]

/-- The tokens of a declaration without values, behind its keyword. -/
inductive SkippedForm : SkippedKind → Tokens → Prop where
  | func {receiver types head : Tokens} (bound : OptionalGroup .paren receiver) (w : String)
      (p : Position) (generic : OptionalGroup .bracket types) (signed : SignatureForm head)
      (inner : Tokens) (q r : Position) :
      SkippedForm .func (receiver ++ .word w p :: (types ++ (head ++ [.group .brace inner q r])))
  | type (w : String) (p : Position) {equals type : Tokens} (aliased : OptionalEquals equals)
      (form : TypeForm type) : SkippedForm .type (.word w p :: (equals ++ type))
  | types (inner : Tokens) (p q : Position) : SkippedForm .type [.group .paren inner p q]
  | path (text value : String) (p : Position) :
      SkippedForm .imports [.literal (.string text value) p]
  | namedPath {t : Token} (noString : seesString [t] = false)
      (noGroup : seesGroup .paren [t] = false) (text value : String) (p : Position) :
      SkippedForm .imports [t, .literal (.string text value) p]
  | paths (inner : Tokens) (p q : Position) : SkippedForm .imports [.group .paren inner p q]

def Declaration.Sound : Declaration → Prop
  | .value _ specs => ∀ s ∈ specs, s.Sound
  | .skipped kind tokens => SkippedForm kind tokens

/-- A type by its tokens; those of a bare name may stand anywhere. -/
inductive OptionalType : Option TypeExpr → Tokens → Prop where
  | absent : OptionalType none []
  | present {t : TypeExpr} {tokens : Tokens} (typed : TypeExpr.ofTokens tokens = t) :
      OptionalType (some t) tokens

inductive Initialisers : List Expr → Tokens → Prop where
  | absent : Initialisers [] []
  | present (joint : Bool) (p : Position) {values : List Expr} {tokens : Tokens}
      (valued : Enumerated Expr.SpelledBy values tokens) :
      Initialisers values (.punct '=' joint p :: tokens)

inductive ValueSpec.SpelledBy : ValueSpec → Tokens → Prop where
  | parts {names : List String} {type : Option TypeExpr} {values : List Expr}
      {front middle back : Tokens} (named : Enumerated (Spells Token.word) names front)
      (typed : OptionalType type middle) (valued : Initialisers values back) :
      SpelledBy { names, type, values } (front ++ (middle ++ back))

/-- Items with any number of semicolons around them. Between two items there is none only where the
rest is `apart`. -/
inductive Series {α : Type} (spell : α → Tokens → Prop) (apart : Tokens → Prop) :
    List α → Tokens → Prop where
  | nil : Series spell apart [] []
  | semicolon (joint : Bool) (p : Position) {items : List α} {tokens : Tokens}
      (others : Series spell apart items tokens) :
      Series spell apart items (.punct ';' joint p :: tokens)
  | cons {a : α} {items : List α} {tokens more : Tokens} (first : spell a tokens)
      (parted : apart more) (others : Series spell apart items more) :
      Series spell apart (a :: items) (tokens ++ more)

/-- Where an item is over: at the end, at a semicolon, and at a word that opens a declaration. -/
def endsItem : Tokens → Bool
  | [] => true
  | .word w _ :: _ => declarationWords.contains w
  | .punct c _ _ :: _ => c = ';'
  | _ => false

/-- One spec by itself, or any number of them in parentheses. -/
inductive Declaration.SpelledBy : Declaration → Tokens → Prop where
  | spec (keyword : ValueKeyword) (p : Position) {s : ValueSpec} {tokens : Tokens}
      (spelled : s.SpelledBy tokens) :
      SpelledBy (.value keyword [s]) (.word keyword.text p :: tokens)
  | specs (keyword : ValueKeyword) (p q r : Position) {specs : List ValueSpec} {inner : Tokens}
      (series : Series ValueSpec.SpelledBy (endsItem ·) specs inner) :
      SpelledBy (.value keyword specs) [.word keyword.text p, .group .paren inner q r]
  | skipped (kind : SkippedKind) (p : Position) (tokens : Tokens) :
      SpelledBy (.skipped kind tokens) (.word kind.text p :: tokens)

/-- Declarations follow one another with or without semicolons. -/
def Declaration.Rendering : List Declaration → Tokens → Prop :=
  Series Declaration.SpelledBy fun _ => True

section Change

variable {α β : Type} {spell other : α → Tokens → Prop}

theorem Listed.imp {items : List α} {tokens : Tokens}
    (change : ∀ a ∈ items, ∀ t, spell a t → other a t) (listed : Listed spell items tokens) :
    Listed other items tokens := by
  induction listed with
  | nil => exact .nil
  | cons joint p first others ih =>
    obtain ⟨changeFirst, changeOthers⟩ := List.forall_mem_cons.mp change
    exact .cons joint p (changeFirst _ first) (ih changeOthers)

theorem Enumerated.imp {items : List α} {tokens : Tokens}
    (change : ∀ a ∈ items, ∀ t, spell a t → other a t)
    (enumerated : Enumerated spell items tokens) : Enumerated other items tokens := by
  obtain ⟨a, others, front, more, rfl, rfl, first, listed⟩ := enumerated
  obtain ⟨changeFirst, changeOthers⟩ := List.forall_mem_cons.mp change
  exact ⟨a, others, front, more, rfl, rfl, changeFirst _ first, listed.imp changeOthers⟩

theorem Listed.map {write : β → α} {items : List β} {tokens : Tokens}
    (listed : Listed (fun b => spell (write b)) items tokens) :
    Listed spell (items.map write) tokens := by
  induction listed with
  | nil => exact .nil
  | cons joint p first others ih => exact .cons joint p first ih

theorem Enumerated.map {write : β → α} {items : List β} {tokens : Tokens}
    (enumerated : Enumerated (fun b => spell (write b)) items tokens) :
    Enumerated spell (items.map write) tokens := by
  obtain ⟨a, others, front, more, rfl, rfl, first, listed⟩ := enumerated
  exact ⟨_, _, front, more, rfl, rfl, first, listed.map⟩

theorem Series.imp {apart : Tokens → Prop} {items : List α} {tokens : Tokens}
    (change : ∀ a ∈ items, ∀ t, spell a t → other a t) (series : Series spell apart items tokens) :
    Series other apart items tokens := by
  induction series with
  | nil => exact .nil
  | semicolon joint p others ih => exact .semicolon joint p (ih change)
  | cons first parted others ih =>
    obtain ⟨changeFirst, changeOthers⟩ := List.forall_mem_cons.mp change
    exact .cons (changeFirst _ first) parted (ih changeOthers)

end Change

/-- Items with commas between them. -/
def commaJoined : List Tokens → Tokens
  | [] => []
  | first :: others => first ++ others.flatMap fun item => .punct ',' false {} :: item

theorem listed_flatMap {α : Type} {spell : α → Tokens → Prop} {write : α → Tokens} {items : List α}
    (spelled : ∀ a ∈ items, spell a (write a)) :
    Listed spell items ((items.map write).flatMap fun item => .punct ',' false {} :: item) := by
  induction items with
  | nil => exact .nil
  | cons a items ih =>
    obtain ⟨first, others⟩ := List.forall_mem_cons.mp spelled
    exact .cons false {} first (ih others)

theorem enumerated_commaJoined {α : Type} {spell : α → Tokens → Prop} {write : α → Tokens}
    {items : List α} (nonempty : items ≠ []) (spelled : ∀ a ∈ items, spell a (write a)) :
    Enumerated spell items (commaJoined (items.map write)) := by
  cases items with
  | nil => contradiction
  | cons a items =>
    obtain ⟨first, others⟩ := List.forall_mem_cons.mp spelled
    exact ⟨a, items, _, _, rfl, rfl, first, listed_flatMap others⟩

def TypeExpr.render : TypeExpr → Tokens
  | .name n => [.word n {}]
  | .composite tokens => tokens

def ValueSpec.render (s : ValueSpec) : Tokens :=
  commaJoined (s.names.map ([.word · {}])) ++ ((s.type.elim [] TypeExpr.render) ++
    if s.values.isEmpty then [] else .punct '=' false {} :: commaJoined (s.values.map Expr.tokens))

/-- A single spec stands by itself. -/
def Declaration.render : Declaration → Tokens
  | .value keyword [s] => .word keyword.text {} :: s.render
  | .value keyword specs =>
    [.word keyword.text {}, .wrap .paren (specs.flatMap fun s => s.render ++ [.punct ';' false {}])]
  | .skipped kind tokens => .word kind.text {} :: tokens

theorem TypeExpr.ofTokens_render {t : TypeExpr} (sound : t.Sound) :
    TypeExpr.ofTokens t.render = t := by
  cases t with
  | name n => rfl
  | composite tokens =>
    simp only [TypeExpr.render, TypeExpr.ofTokens]
    split
    · exact absurd rfl (sound.2 _ _)
    · rfl

theorem Expr.Grouped.spelledBy_tokens {e : Expr} (grouped : e.Grouped) : e.SpelledBy e.tokens := by
  induction grouped with
  | literal l written => cases l <;> rfl
  | name => rfl
  | @paren inner _ ih =>
    have same : Token.unplacedAll inner.tokens = inner.tokens := ih
    simp [SpelledBy, tokens, Token.unplacedAll, Token.unplaced, Token.wrap, same]
  | @unary op operand _ _ ih =>
    have same : Token.unplacedAll operand.tokens = operand.tokens := ih
    simp [SpelledBy, tokens, Token.unplacedAll, Token.unplaced, same]
  | @binary op left right _ _ _ _ ihLeft ihRight =>
    have marks : Token.unplacedAll (Token.operator op.symbol) = Token.operator op.symbol := by
      cases op <;> rfl
    exact Token.unplacedAll_eq_append.mpr
      ⟨_, _, rfl, Token.unplacedAll_eq_append.mpr ⟨_, _, rfl, ihLeft, marks⟩, ihRight⟩

theorem ValueSpec.Sound.spelledBy_render {s : ValueSpec} (sound : s.Sound) :
    s.SpelledBy s.render := by
  obtain ⟨names, type, values⟩ := s
  refine .parts (enumerated_commaJoined sound.named fun w _ => ⟨{}, rfl⟩) ?_ ?_
  · cases type with
    | none => exact .absent
    | some t => exact .present (TypeExpr.ofTokens_render (sound.typed t rfl))
  · cases values with
    | nil => exact .absent
    | cons e others =>
      exact .present false {} (enumerated_commaJoined (by simp) fun e member =>
        (sound.valued e member).spelledBy_tokens)

theorem Declaration.Sound.spelledBy_render {d : Declaration} (sound : d.Sound) :
    d.SpelledBy d.render := by
  cases d with
  | skipped kind tokens => exact .skipped kind {} tokens
  | value keyword specs =>
    have series : Series ValueSpec.SpelledBy (endsItem ·) specs
        (specs.flatMap fun s => s.render ++ [.punct ';' false {}]) := by
      induction specs with
      | nil => exact .nil
      | cons s specs ih =>
        obtain ⟨first, others⟩ := List.forall_mem_cons.mp sound
        simp only [List.flatMap_cons, List.append_assoc]
        exact .cons first.spelledBy_render rfl (.semicolon false {} (ih others))
    match specs, sound with
    | [s], sound => exact .spec keyword {} (sound s (List.mem_singleton_self s)).spelledBy_render
    | [], _ => exact .specs keyword {} {} {} series
    | _ :: _ :: _, _ => exact .specs keyword {} {} {} series

/-- Declarations side by side. -/
theorem Declaration.rendering_flatMap {declarations : List Declaration}
    (sound : ∀ d ∈ declarations, d.Sound) :
    Rendering declarations (declarations.flatMap Declaration.render) := by
  induction declarations with
  | nil => exact .nil
  | cons d declarations ih =>
    obtain ⟨first, others⟩ := List.forall_mem_cons.mp sound
    exact .cons first.spelledBy_render trivial (ih others)

end GoDecl
