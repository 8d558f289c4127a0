import GoDecl.Proofs.Readers

/-! How types are read. Types are kept as tokens, so what matters is where a type is over: no part
of what follows can go on with it. -/
namespace GoDecl

open Grammar

/-- Words that are no type names: those that open a declaration or a longer type. -/
def typeWords : List String := declarationWords ++ ["map", "chan", "struct", "interface"]

/-- A point and a name, or nothing. -/
inductive Qualifier : Tokens → Prop where
  | absent : Qualifier []
  | present (joint : Bool) (w : String) (p q : Position) :
      Qualifier [.punct '.' joint p, .word w q]

/-- One group in brackets of a sort, or nothing. -/
inductive OptionalGroup (d : Delimiter) : Tokens → Prop where
  | absent : OptionalGroup d []
  | present (inner : Tokens) (p q : Position) : OptionalGroup d [.group d inner p q]

/-- The tokens of a type. What a function returns is a type as `returned` asks for. -/
inductive TypeSyntax (returned : Tokens → Prop) : Tokens → Prop where
  | named {n : String} (free : n ∉ typeWords) (p : Position) {qualifier arguments : Tokens}
      (qualified : Qualifier qualifier) (applied : OptionalGroup .bracket arguments) :
      TypeSyntax returned (.word n p :: (qualifier ++ arguments))
  | pointer (joint : Bool) (p : Position) {target : Tokens} (behind : TypeSyntax returned target) :
      TypeSyntax returned (.punct '*' joint p :: target)
  | array (inner : Tokens) (p q : Position) {element : Tokens}
      (behind : TypeSyntax returned element) :
      TypeSyntax returned (.group .bracket inner p q :: element)
  | map (p : Position) (inner : Tokens) (q r : Position) {element : Tokens}
      (behind : TypeSyntax returned element) :
      TypeSyntax returned (.word "map" p :: .group .bracket inner q r :: element)
  | channel (p : Position) {element : Tokens} (behind : TypeSyntax returned element) :
      TypeSyntax returned (.word "chan" p :: element)
  | send (p q r : Position) (joint : Bool) {element : Tokens}
      (behind : TypeSyntax returned element) :
      TypeSyntax returned (.word "chan" p :: .punct '<' true q :: .punct '-' joint r :: element)
  | receive (q r : Position) (joint : Bool) (p : Position) {element : Tokens}
      (behind : TypeSyntax returned element) :
      TypeSyntax returned (.punct '<' true q :: .punct '-' joint r :: .word "chan" p :: element)
  | func (p : Position) (inner : Tokens) (q r : Position) :
      TypeSyntax returned [.word "func" p, .group .paren inner q r]
  | funcTo (p : Position) (inner : Tokens) (q r : Position) {result : Tokens}
      (behind : TypeSyntax returned result) (may : returned result) :
      TypeSyntax returned (.word "func" p :: .group .paren inner q r :: result)
  | body {w : String} (opens : w = "struct" ∨ w = "interface") (p : Position) (inner : Tokens)
      (q r : Position) : TypeSyntax returned [.word w p, .group .brace inner q r]
  | paren (inner : Tokens) (p q : Position) : TypeSyntax returned [.group .paren inner p q]

/-- Any type, also of a function that returns functions. -/
abbrev AnyType : Tokens → Prop := TypeSyntax fun _ => True

/-- What a function returns cannot itself be a function, unless something stands in front of it. -/
abbrev TypeForm : Tokens → Prop := TypeSyntax fun result => seesWord "func" result = false

/-- Parameters and perhaps a result. -/
inductive SignatureForm : Tokens → Prop where
  | bare (inner : Tokens) (p q : Position) : SignatureForm [.group .paren inner p q]
  | result (inner : Tokens) (p q : Position) {type : Tokens} (behind : TypeForm type)
      (noFunc : seesWord "func" type = false) : SignatureForm (.group .paren inner p q :: type)

/-- Where a type is over. -/
def endsType (rest : Tokens) : Bool := !startsType rest && !seesPunct ['.'] rest

section Follow

variable {rest : Tokens} (ends : endsType rest)

include ends

theorem noType_of_endsType : startsType rest = false := by
  simp only [endsType, Bool.and_eq_true, Bool.not_eq_true'] at ends
  exact ends.1

theorem noPoint_of_endsType : seesPunct ['.'] rest = false := by
  simp only [endsType, Bool.and_eq_true, Bool.not_eq_true'] at ends
  exact ends.2

theorem noGroup_of_endsType : seesGroup .paren rest = false ∧ seesGroup .bracket rest = false := by
  have noType := noType_of_endsType ends
  simp only [startsType, Bool.or_eq_false_iff] at noType
  exact ⟨noType.1.1.1.1, noType.1.1.1.2⟩

end Follow

section Names

variable {n : String} (free : n ∉ typeWords) (p : Position)

include free

theorem noDeclarationWord (a : Tokens) : seesDeclarationWord (.word n p :: a) = false := by
  simp only [typeWords, List.mem_append, not_or] at free
  simpa [seesDeclarationWord] using free.1

theorem noTypeWord {w : String} (fixed : w ∈ typeWords) (a : Tokens) :
    seesWord w (.word n p :: a) = false := by
  simp only [seesWord, decide_eq_false_iff_not]
  rintro rfl
  exact free fixed

end Names

/-- A type can begin where one is written, unless it is that of a function. -/
theorem startsType_of_form {type : Tokens} (form : TypeForm type)
    (noFunc : seesWord "func" type = false) (rest : Tokens) : startsType (type ++ rest) = true := by
  cases form with
  | named free p qualified applied =>
    rw [List.cons_append, startsType, noDeclarationWord free]
    simp [seesAnyWord]
  | pointer joint => cases joint <;> rfl
  | func | funcTo => simp [seesWord] at noFunc
  | body opens => rcases opens with rfl | rfl <;> rfl
  | array => simp [startsType, seesGroup]
  | paren => simp [startsType, seesGroup]
  | map | channel | send | receive => rfl

theorem seesGroup_group (d : Delimiter) (inner : Tokens) (p q : Position) (rest : Tokens) :
    seesGroup d (.group d inner p q :: rest) = true := by
  simp [seesGroup]

theorem exists_less {n fuel : Nat} (enough : 2 * (n + 1) ≤ fuel) :
    ∃ less, fuel = less + 1 ∧ 2 * n + 1 ≤ less :=
  ⟨fuel - 1, by omega, by omega⟩

section Parts

variable {t : Token} {more : Tokens} (c : Cursor)

theorem require_token {sees : Tokens → Bool} (complaint : String) (seen : sees (t :: more) = true) :
    require sees complaint (c.at (t :: more)) = .ok ([t], c.at more) := by
  simp only [require, ahead_at_bind, seen, if_true, token_bind]
  rfl

theorem require_word (complaint : String) (w : String) (p : Position) :
    require seesAnyWord complaint (c.at (.word w p :: more)) = .ok ([.word w p], c.at more) :=
  require_token c complaint rfl

theorem require_group (complaint : String) (d : Delimiter) (inner : Tokens) (p q : Position) :
    require (seesGroup d) complaint (c.at (.group d inner p q :: more)) =
      .ok ([.group d inner p q], c.at more) :=
  require_token c complaint (seesGroup_group d inner p q more)

theorem optionalToken_present {sees : Tokens → Bool} (seen : sees (t :: more) = true) :
    optionalToken sees (c.at (t :: more)) = .ok ([t], c.at more) := by
  simp only [optionalToken, ahead_at_bind, seen, if_true, token_bind]
  rfl

theorem optionalToken_absent {sees : Tokens → Bool} {a : Tokens} (unseen : sees a = false) :
    optionalToken sees (c.at a) = .ok ([], c.at a) := by
  simp only [optionalToken, ahead_at_bind, unseen]
  rfl

theorem optionalToken_group {d : Delimiter} {tokens : Tokens} (optional : OptionalGroup d tokens)
    {rest : Tokens} (noGroup : seesGroup d rest = false) :
    optionalToken (seesGroup d) (c.at (tokens ++ rest)) = .ok (tokens, c.at rest) := by
  cases optional with
  | absent => exact optionalToken_absent c noGroup
  | present inner p q => exact optionalToken_present c (by simp [seesGroup])

end Parts

section Reading

variable {rest : Tokens} (ends : endsType rest) (c : Cursor)

include ends

theorem namedType_form {n : String} (free : n ∉ typeWords) (p : Position)
    {qualifier arguments : Tokens} (qualified : Qualifier qualifier)
    (applied : OptionalGroup .bracket arguments) :
    namedType (c.at (.word n p :: (qualifier ++ (arguments ++ rest)))) =
      .ok (.word n p :: (qualifier ++ arguments), c.at rest) := by
  have taken := optionalToken_group c applied (noGroup_of_endsType ends).2
  have isName (a : Tokens) :
      (!seesAnyWord (.word n p :: a) || seesDeclarationWord (.word n p :: a)) = false := by
    rw [noDeclarationWord free]
    rfl
  cases qualified with
  | absent =>
    have noPoint : seesPunct ['.'] (arguments ++ rest) = false := by
      cases applied with
      | absent => exact noPoint_of_endsType ends
      | present => rfl
    simp only [namedType, ahead_at_bind, isName, Bool.false_eq_true, if_false, token_bind,
      List.nil_append, noPoint, pure_bind, bind_of_ok taken]
    rfl
  | present joint w q r =>
    have point :
        seesPunct ['.'] (.punct '.' joint q :: .word w r :: (arguments ++ rest)) = true := by
      cases joint <;> rfl
    simp only [namedType, ahead_at_bind, isName, Bool.false_eq_true, if_false, token_bind,
      List.cons_append, List.nil_append, point, if_true, pure_bind,
      bind_of_ok (require_word c _ w r), bind_of_ok taken]
    rfl

theorem typeTokens_named {n : String} (free : n ∉ typeWords) (p : Position)
    {qualifier arguments : Tokens} (qualified : Qualifier qualifier)
    (applied : OptionalGroup .bracket arguments) (fuel : Nat) :
    typeTokens (fuel + 1) (c.at (.word n p :: (qualifier ++ (arguments ++ rest)))) =
      .ok (.word n p :: (qualifier ++ arguments), c.at rest) := by
  have noWord {w : String} (fixed : w ∈ typeWords) (a : Tokens) := noTypeWord free p fixed a
  simp only [typeTokens, ahead_at_bind, seesGroup, seesPunct_word, seesArrow,
    noWord (show "map" ∈ typeWords by decide), noWord (show "chan" ∈ typeWords by decide),
    noWord (show "func" ∈ typeWords by decide), noWord (show "struct" ∈ typeWords by decide),
    noWord (show "interface" ∈ typeWords by decide), Bool.or_false, Bool.false_eq_true, if_false]
  exact namedType_form ends c free p qualified applied

theorem signature_bare (inner : Tokens) (p q : Position) (fuel : Nat) :
    signature (fuel + 1) (c.at (.group .paren inner p q :: rest)) =
      .ok ([.group .paren inner p q], c.at rest) := by
  simp only [signature, bind_of_ok (require_group c _ .paren inner p q), ahead_at_bind,
    (noGroup_of_endsType ends).1, noType_of_endsType ends]
  rfl

end Reading

section Steps

variable {fuel : Nat} {c : Cursor} {a type rest : Tokens}
  (taken : typeTokens fuel (c.at a) = .ok (type, c.at rest))

theorem signature_result (inner : Tokens) (p q : Position) (form : TypeForm type)
    (noFunc : seesWord "func" type = false)
    (taken : typeTokens fuel (c.at (type ++ rest)) = .ok (type, c.at rest)) :
    signature (fuel + 1) (c.at (.group .paren inner p q :: (type ++ rest))) =
      .ok (.group .paren inner p q :: type, c.at rest) := by
  have starts := startsType_of_form form noFunc rest
  simp only [signature, bind_of_ok (require_group c _ .paren inner p q), ahead_at_bind]
  cases group : seesGroup .paren (type ++ rest) with
  | true =>
    cases form with
    | paren => rfl
    | _ => simp [seesGroup] at group
  | false =>
    simp only [starts, Bool.false_eq_true, if_false, if_true, bind_of_ok taken]
    rfl

theorem typeTokens_func {tail : Tokens} (p : Position)
    (signed : signature fuel (c.at a) = .ok (tail, c.at rest)) :
    typeTokens (fuel + 1) (c.at (.word "func" p :: a)) =
      .ok (.word "func" p :: tail, c.at rest) := by
  have isFunc : typeTokens (fuel + 1) (c.at (.word "func" p :: a)) =
      (signature fuel >>= fun tail => pure (.word "func" p :: tail)) (c.at a) := rfl
  rw [isFunc, bind_of_ok signed]
  rfl

theorem typeTokens_arrow (joint : Bool) (p q : Position) :
    typeTokens (fuel + 1) (c.at (.punct '<' true p :: .punct '-' joint q :: a)) =
      (typeTokens fuel >>= fun type => pure (.punct '<' true p :: .punct '-' joint q :: type))
        (c.at a) := by
  cases joint <;> rfl

include taken

theorem typeTokens_pointer (joint : Bool) (p : Position) :
    typeTokens (fuel + 1) (c.at (.punct '*' joint p :: a)) =
      .ok (.punct '*' joint p :: type, c.at rest) := by
  have isPointer : typeTokens (fuel + 1) (c.at (.punct '*' joint p :: a)) =
      (typeTokens fuel >>= fun type => pure (.punct '*' joint p :: type)) (c.at a) := by
    cases joint <;> rfl
  rw [isPointer, bind_of_ok taken]
  rfl

theorem typeTokens_array (inner : Tokens) (p q : Position) :
    typeTokens (fuel + 1) (c.at (.group .bracket inner p q :: a)) =
      .ok (.group .bracket inner p q :: type, c.at rest) := by
  have isArray : typeTokens (fuel + 1) (c.at (.group .bracket inner p q :: a)) =
      (typeTokens fuel >>= fun type => pure (.group .bracket inner p q :: type)) (c.at a) := rfl
  rw [isArray, bind_of_ok taken]
  rfl

theorem typeTokens_map (p : Position) (inner : Tokens) (q r : Position) :
    typeTokens (fuel + 1) (c.at (.word "map" p :: .group .bracket inner q r :: a)) =
      .ok (.word "map" p :: .group .bracket inner q r :: type, c.at rest) := by
  have isMap : typeTokens (fuel + 1) (c.at (.word "map" p :: .group .bracket inner q r :: a)) =
      (typeTokens fuel >>= fun type =>
        pure (.word "map" p :: [.group .bracket inner q r] ++ type)) (c.at a) := rfl
  rw [isMap, bind_of_ok taken]
  rfl

theorem typeTokens_channel (p : Position) (noArrow : seesArrow a = false) :
    typeTokens (fuel + 1) (c.at (.word "chan" p :: a)) =
      .ok (.word "chan" p :: type, c.at rest) := by
  have isChannel : typeTokens (fuel + 1) (c.at (.word "chan" p :: a)) =
      (if seesArrow a then do
        let direction ← arrow
        let type ← typeTokens fuel
        pure (Token.word "chan" p :: direction ++ type)
      else do
        let type ← typeTokens fuel
        pure ([Token.word "chan" p] ++ type)) (c.at a) := rfl
  rw [isChannel, noArrow, if_neg Bool.false_ne_true, bind_of_ok taken]
  rfl

theorem typeTokens_send (p q r : Position) (joint : Bool) :
    typeTokens (fuel + 1) (c.at (.word "chan" p :: .punct '<' true q :: .punct '-' joint r :: a)) =
      .ok (.word "chan" p :: .punct '<' true q :: .punct '-' joint r :: type, c.at rest) := by
  have isSend : typeTokens (fuel + 1)
      (c.at (.word "chan" p :: .punct '<' true q :: .punct '-' joint r :: a)) =
      (typeTokens fuel >>= fun type =>
        pure (.word "chan" p :: [.punct '<' true q, .punct '-' joint r] ++ type)) (c.at a) := by
    cases joint <;> rfl
  rw [isSend, bind_of_ok taken]
  rfl

end Steps

/-- An arrow behind `chan` is taken as the direction of the channel, also where it belongs to its
elements; the tokens are the same. -/
theorem typeTokens_chan {element rest : Tokens} (form : TypeForm element) (p : Position)
    {fuel : Nat} {c : Cursor} (enough : 2 * element.length ≤ fuel)
    (taken : ∀ fuel, 2 * element.length ≤ fuel →
      typeTokens fuel (c.at (element ++ rest)) = .ok (element, c.at rest)) :
    typeTokens (fuel + 1) (c.at (.word "chan" p :: (element ++ rest))) =
      .ok (.word "chan" p :: element, c.at rest) := by
  cases arrow : seesArrow (element ++ rest) with
  | false => exact typeTokens_channel (taken fuel enough) p arrow
  | true =>
    cases form with
    | @receive q r joint p' more behind =>
      have whole := taken (fuel + 1) (by omega)
      simp only [List.cons_append, typeTokens_arrow] at whole
      refine typeTokens_send ?_ p q r joint
      obtain ⟨read, d, taken, same⟩ := ok_of_bind whole
      cases same
      exact taken
    | pointer joint => simp [seesArrow] at arrow
    | named | array | map | channel | send | func | funcTo | body | paren =>
      simp [seesArrow] at arrow

theorem typeTokens_form {rest : Tokens} (ends : endsType rest) (c : Cursor) {type : Tokens}
    (form : TypeForm type) {fuel : Nat} (enough : 2 * type.length ≤ fuel) :
    typeTokens fuel (c.at (type ++ rest)) = .ok (type, c.at rest) := by
  induction form generalizing fuel with
  | named free p qualified applied =>
    obtain ⟨fuel, rfl, -⟩ := exists_less enough
    rw [List.cons_append, List.append_assoc]
    exact typeTokens_named ends c free p qualified applied fuel
  | pointer joint p behind ih =>
    obtain ⟨fuel, rfl, less⟩ := exists_less enough
    exact typeTokens_pointer (ih (by omega)) joint p
  | array inner p q behind ih =>
    obtain ⟨fuel, rfl, less⟩ := exists_less enough
    exact typeTokens_array (ih (by omega)) inner p q
  | map p inner q r behind ih =>
    obtain ⟨fuel, rfl, less⟩ := exists_less enough
    exact typeTokens_map (ih (by simp at less; omega)) p inner q r
  | channel p behind ih =>
    obtain ⟨fuel, rfl, less⟩ := exists_less enough
    exact typeTokens_chan behind p (by omega) fun _ => ih
  | send p q r joint behind ih =>
    obtain ⟨fuel, rfl, less⟩ := exists_less enough
    exact typeTokens_send (ih (by simp at less; omega)) p q r joint
  | receive q r joint p behind ih =>
    obtain ⟨fuel, rfl, less⟩ := exists_less enough
    obtain ⟨fuel, rfl, less⟩ := exists_less (Nat.le_of_succ_le less)
    simp only [List.cons_append, typeTokens_arrow]
    rw [bind_of_ok (typeTokens_chan behind p (by simp at less; omega) fun _ => ih)]
    rfl
  | func p inner q r =>
    obtain ⟨fuel, rfl, less⟩ := exists_less enough
    obtain ⟨fuel, rfl, less⟩ := exists_less (Nat.le_of_succ_le less)
    exact typeTokens_func p (signature_bare ends c inner q r fuel)
  | funcTo p inner q r behind noFunc ih =>
    obtain ⟨fuel, rfl, less⟩ := exists_less enough
    obtain ⟨fuel, rfl, less⟩ := exists_less (Nat.le_of_succ_le less)
    exact typeTokens_func p (signature_result inner q r behind noFunc (ih (by omega)))
  | body opens p inner q r =>
    obtain ⟨fuel, rfl, less⟩ := exists_less enough
    rcases opens with rfl | rfl <;> rfl
  | paren inner p q =>
    obtain ⟨fuel, rfl, less⟩ := exists_less enough
    rfl

theorem declaredType_form {rest : Tokens} (ends : endsType rest) (c : Cursor) {type : Tokens}
    (form : TypeForm type) : declaredType (c.at (type ++ rest)) = .ok (type, c.at rest) := by
  refine typeTokens_form ends c form ?_
  simp only [Cursor.at_ahead, List.length_append]
  omega

theorem signature_form {rest : Tokens} (ends : endsType rest) (c : Cursor) {tokens : Tokens}
    (form : SignatureForm tokens) {fuel : Nat} (enough : 2 * tokens.length ≤ fuel) :
    signature fuel (c.at (tokens ++ rest)) = .ok (tokens, c.at rest) := by
  cases form with
  | bare inner p q =>
    obtain ⟨fuel, rfl, -⟩ := exists_less enough
    exact signature_bare ends c inner p q fuel
  | result inner p q behind noFunc =>
    obtain ⟨fuel, rfl, less⟩ := exists_less enough
    exact signature_result inner p q behind noFunc (typeTokens_form ends c behind (by omega))

/-- Of all marks, only a star or an arrow begins a type. -/
theorem seesPunct_form {type : Tokens} (form : TypeForm type) {mark : Char} (noStar : mark ≠ '*')
    (noArrow : mark ≠ '<') (rest : Tokens) : seesPunct [mark] (type ++ rest) = false := by
  cases form with
  | pointer | receive => simp [noStar, noArrow]
  | named | array | map | channel | send | func | funcTo | body | paren => simp

end GoDecl
