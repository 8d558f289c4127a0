import GoDecl.Proofs.Words
import Mathlib.Computability.Language

/-! The lexemes of a source as languages. Each kind of piece is a regular language over character
classes; two kinds have no lexeme in common, and the first two characters of a text tell which kinds
it may begin with. -/
namespace GoDecl.Source

open Text Computability

/-- The texts of one character of a class. -/
def one (p : Char → Bool) : Language Char := {w | ∃ c, p c = true ∧ w = [c]}

def maybe (l : Language Char) : Language Char := 1 + l

def repeated (l : Language Char) : Language Char := l * l∗

def isSign (c : Char) : Bool := c = '+' || c = '-'

def isFloatMark (c : Char) : Bool := c = 'e' || c = 'E'

def isWordBegin (c : Char) : Bool := isLetter c || c = '_'

def isWordRest (c : Char) : Bool := isLetter c || isNumber c || c = '_'

/-- What may stand alone: all that no word, number, string or blank begins with. -/
def isMark (c : Char) : Bool :=
  !(c = backQuote || c = doubleQuote || c = singleQuote || isLetter c || isNumber c || c = '_' ||
    isBlank c)

/-- A sign and digits, `[+-][0-9_]+`. -/
def signed : Language Char := one isSign * repeated (one isDigitOrUnderscore)

/-- The rest of a quoted text, `([^q\\\n]|\\.)*q`. -/
def quotedRest (quote : Char) : Language Char :=
  (one (fun c => c ≠ quote && c ≠ '\\' && c ≠ '\n') + one (· = '\\') * one (· ≠ '\n'))∗ *
    one (· = quote)

/-- The rest of a block comment, `([^*]|\*+[^*/])*\*+/`. -/
def commentRest : Language Char :=
  (one (· ≠ '*') + repeated (one (· = '*')) * one (fun c => c ≠ '*' && c ≠ '/'))∗ *
    (repeated (one (· = '*')) * one (· = '/'))

/-- The digits of a number behind the first, `[0-9A-Za-z_]*(\.[0-9A-Za-z_]*)?`. -/
def numberBody : Language Char :=
  (one isAsciiWordPart)∗ * maybe (one (· = '.') * (one isAsciiWordPart)∗)

/-- The lexemes of a kind. Nothing that is not recognised is a lexeme. -/
def PieceKind.language : PieceKind → Language Char
  | .rawString => one (· = backQuote) * ((one (· ≠ backQuote))∗ * one (· = backQuote))
  | .pointFloat =>
    one (· = '.') * (one isDigit * ((one isDigitOrUnderscore)∗ *
      maybe (one isFloatMark * (maybe (one isSign) * repeated (one isDigitOrUnderscore)))))
  | .number => one isDigit * (numberBody * maybe (one isExponentMark * signed))
  | .string => one (· = doubleQuote) * quotedRest doubleQuote
  | .rune => one (· = singleQuote) * quotedRest singleQuote
  | .lineComment => one (· = '/') * (one (· = '/') * (one (· ≠ '\n'))∗)
  | .blockComment => one (· = '/') * (one (· = '*') * commentRest)
  | .word => one isWordBegin * (one isWordRest)∗
  | .blank => repeated (one isBlank)
  | .mark => one isMark
  | .unknown => 0

/-- The lexemes of all kinds together. -/
def lexemes : Language Char := {w | ∃ kind : PieceKind, w ∈ kind.language}

section Membership

variable {p : Char → Bool} {l m : Language Char} {c : Char} {w : List Char}

theorem mem_one_mul : w ∈ one p * l ↔ ∃ c rest, w = c :: rest ∧ p c = true ∧ rest ∈ l := by
  rw [Language.mem_mul]
  constructor
  · rintro ⟨_, ⟨c, holds, rfl⟩, rest, member, rfl⟩
    exact ⟨c, rest, rfl, holds, member⟩
  · rintro ⟨c, rest, rfl, holds, member⟩
    exact ⟨[c], ⟨c, holds, rfl⟩, rest, member, rfl⟩

@[simp] theorem cons_mem_one_mul : c :: w ∈ one p * l ↔ p c = true ∧ w ∈ l := by
  simp [mem_one_mul]

@[simp] theorem nil_notMem_one_mul : [] ∉ one p * l := by
  simp [mem_one_mul]

@[simp] theorem cons_mem_one : c :: w ∈ one p ↔ p c = true ∧ w = [] := by
  rw [← mul_one (one p), cons_mem_one_mul, Language.mem_one]

@[simp] theorem nil_notMem_one : [] ∉ one p := by
  rw [← mul_one (one p)]
  exact nil_notMem_one_mul

/-- A star is left at once or after one more round. -/
theorem mem_kstar_mul : w ∈ l∗ * m ↔ w ∈ m ∨ w ∈ l * (l∗ * m) := by
  have unfolded : l∗ * m = m + l * (l∗ * m) := by
    conv => lhs; rw [← Language.one_add_self_mul_kstar_eq_kstar l, add_mul, one_mul, mul_assoc]
  conv => lhs; rw [unfolded]
  exact Language.mem_add _ _ _

theorem cons_mem_many_mul :
    c :: w ∈ (one p)∗ * l ↔ c :: w ∈ l ∨ p c = true ∧ w ∈ (one p)∗ * l := by
  rw [mem_kstar_mul, cons_mem_one_mul]

theorem nil_mem_many_mul : [] ∈ (one p)∗ * l ↔ [] ∈ l := by
  rw [mem_kstar_mul, or_iff_left nil_notMem_one_mul]

theorem mem_many : w ∈ (one p)∗ ↔ ∀ c ∈ w, p c = true := by
  rw [← mul_one (one p)∗]
  induction w with
  | nil => simp [nil_mem_many_mul, -mul_one]
  | cons c rest ih => rw [cons_mem_many_mul, ih, List.forall_mem_cons, Language.mem_one]; simp

theorem mem_maybe : w ∈ maybe l ↔ w = [] ∨ w ∈ l := Language.mem_add _ _ _

theorem cons_mem_repeated : c :: w ∈ repeated (one p) ↔ p c = true ∧ ∀ d ∈ w, p d = true := by
  rw [repeated, cons_mem_one_mul, mem_many]

end Membership

/-- What may follow behind one character of the rest of a quoted text. -/
theorem cons_mem_quotedRest {quote c : Char} {w : List Char} :
    c :: w ∈ quotedRest quote ↔ c = quote ∧ w = [] ∨
      (c ≠ quote ∧ c ≠ '\\' ∧ c ≠ '\n') ∧ w ∈ quotedRest quote ∨
      c = '\\' ∧ ∃ d more, w = d :: more ∧ d ≠ '\n' ∧ more ∈ quotedRest quote := by
  rw [quotedRest, mem_kstar_mul, add_mul, Language.mem_add, mul_assoc, cons_mem_one,
    cons_mem_one_mul, cons_mem_one_mul, mem_one_mul]
  simp [and_assoc]

/-- The rest of a block comment behind a star, `\**([^*/]([^*]|\*+[^*/])*\*+|)/`. -/
def starRest : Language Char :=
  (one (· = '*'))∗ * (one (fun c => c ≠ '*' && c ≠ '/') * commentRest + one (· = '/'))

theorem cons_mem_commentRest {c : Char} {w : List Char} :
    c :: w ∈ commentRest ↔ c ≠ '*' ∧ w ∈ commentRest ∨ c = '*' ∧ w ∈ starRest := by
  have closing : repeated (one (· = '*')) * one (· = '/') =
      one (· = '*') * ((one (· = '*'))∗ * one (· = '/')) := mul_assoc _ _ _
  have further : repeated (one (· = '*')) * one (fun c => c ≠ '*' && c ≠ '/') * commentRest =
      one (· = '*') * ((one (· = '*'))∗ * (one (fun c => c ≠ '*' && c ≠ '/') * commentRest)) := by
    rw [repeated, mul_assoc, mul_assoc]
  rw [commentRest, mem_kstar_mul, ← commentRest, add_mul, Language.mem_add, closing, further,
    cons_mem_one_mul, cons_mem_one_mul, cons_mem_one_mul, starRest, mul_add, Language.mem_add]
  simp only [decide_eq_true_eq]
  tauto

theorem cons_mem_starRest {c : Char} {w : List Char} :
    c :: w ∈ starRest ↔ c = '*' ∧ w ∈ starRest ∨ (c ≠ '*' ∧ c ≠ '/') ∧ w ∈ commentRest ∨
      c = '/' ∧ w = [] := by
  rw [starRest, cons_mem_many_mul, ← starRest, Language.mem_add, cons_mem_one_mul, cons_mem_one]
  simp only [decide_eq_true_eq, Bool.and_eq_true]
  tauto

theorem nil_notMem_commentRest : [] ∉ commentRest := by
  rw [commentRest, mem_kstar_mul, add_mul, Language.mem_add, repeated]
  simp [mul_assoc]

theorem nil_notMem_starRest : [] ∉ starRest := by
  rw [starRest, nil_mem_many_mul, Language.mem_add]
  simp

theorem nil_notMem_quotedRest {quote : Char} : [] ∉ quotedRest quote := by
  rw [quotedRest, mem_kstar_mul, add_mul, Language.mem_add]
  simp [mul_assoc]

/-- The kinds whose lexemes may begin with a character. -/
def leading (c : Char) : List PieceKind :=
  if c = backQuote then [.rawString]
  else if c = doubleQuote then [.string]
  else if c = singleQuote then [.rune]
  else if isDigit c then [.number]
  else if isWordBegin c then [.word]
  else if isBlank c then [.blank]
  else if isNumber c then []
  else if c = '.' then [.pointFloat, .mark]
  else if c = '/' then [.lineComment, .blockComment, .mark]
  else [.mark]

theorem digit_cases {c : Char} (digit : isDigit c = true) :
    c ∉ [backQuote, doubleQuote, singleQuote] ∧ isWordBegin c = false ∧ isBlank c = false ∧
      isNumber c = true :=
  forall_asciiWordPart (P := fun c => isDigit c = true →
    c ∉ [backQuote, doubleQuote, singleQuote] ∧ isWordBegin c = false ∧ isBlank c = false ∧
      isNumber c = true)
    (by decide) c (by simp [isAsciiWordPart, isDigitOrUnderscore, digit]) digit

/-- The white space characters are tried one by one. -/
theorem blank_cases {c : Char} (blank : isBlank c = true) :
    c ∉ [backQuote, doubleQuote, singleQuote] ∧ isWordBegin c = false := by
  have each : ∀ n ∈ points [0x9, 0xe, 0x20, 0x21, 0x85, 0x86, 0xa0, 0xa1, 0x1680, 0x1681, 0x2000,
      0x200b, 0x2028, 0x202a, 0x202f, 0x2030, 0x205f, 0x2060, 0x3000, 0x3001],
      Char.ofNat n ∉ [backQuote, doubleQuote, singleQuote] ∧ isWordBegin (.ofNat n) = false := by
    decide +kernel
  have holds := each c.toNat (mem_points blank)
  rwa [Char.ofNat_toNat] at holds

theorem leading_of_digit {c : Char} (digit : isDigit c = true) : leading c = [.number] := by
  obtain ⟨noQuote, -⟩ := digit_cases digit
  simp only [List.mem_cons, List.not_mem_nil, or_false, not_or] at noQuote
  simp [leading, noQuote, digit]

theorem not_isDigit {c : Char} (begin : isWordBegin c = true ∨ isBlank c = true) :
    isDigit c = false := by
  rw [Bool.eq_false_iff]
  intro digit
  obtain ⟨-, noBegin, noBlank, -⟩ := digit_cases digit
  simp [noBegin, noBlank] at begin

theorem leading_of_wordBegin {c : Char} (begin : isWordBegin c = true) : leading c = [.word] := by
  have noQuote : c ≠ backQuote ∧ c ≠ doubleQuote ∧ c ≠ singleQuote := by
    refine ⟨?_, ?_, ?_⟩ <;> rintro rfl <;> revert begin <;> decide
  simp [leading, noQuote, not_isDigit (.inl begin), begin]

theorem leading_of_blank {c : Char} (blank : isBlank c = true) : leading c = [.blank] := by
  obtain ⟨noQuote, noBegin⟩ := blank_cases blank
  simp only [List.mem_cons, List.not_mem_nil, or_false, not_or] at noQuote
  simp [leading, noQuote, not_isDigit (.inr blank), noBegin, blank]

theorem mark_mem_leading {c : Char} (mark : isMark c = true) : .mark ∈ leading c := by
  simp only [isMark, Bool.not_eq_true', Bool.or_eq_false_iff, decide_eq_false_iff_not] at mark
  obtain ⟨⟨⟨⟨⟨⟨noBack, noDouble⟩, noSingle⟩, noLetter⟩, noNumber⟩, noBar⟩, noBlank⟩ := mark
  have noDigit : isDigit c = false := by
    rw [Bool.eq_false_iff]
    intro digit
    simp [(digit_cases digit).2.2.2] at noNumber
  simp only [leading, noBack, noDouble, noSingle, noDigit, isWordBegin, noLetter, noBar, noBlank,
    noNumber]
  simp only [if_false, decide_false, Bool.or_self, Bool.false_eq_true]
  split
  · simp
  · split <;> simp

/-- The first character of a lexeme leads its kind. -/
theorem mem_leading {kind : PieceKind} {c : Char} {w : List Char}
    (member : c :: w ∈ kind.language) : kind ∈ leading c := by
  cases kind with
  | number => simp [leading_of_digit (cons_mem_one_mul.mp member).1]
  | word => simp [leading_of_wordBegin (cons_mem_one_mul.mp member).1]
  | blank => simp [leading_of_blank (cons_mem_repeated.mp member).1]
  | mark => exact mark_mem_leading (cons_mem_one.mp member).1
  | unknown => exact absurd member (Language.notMem_zero _)
  | rawString | pointFloat | string | rune | lineComment | blockComment =>
    have first := (cons_mem_one_mul.mp member).1
    rw [decide_eq_true_eq] at first
    subst first
    decide

theorem nil_notMem_language (kind : PieceKind) : [] ∉ kind.language := by
  cases kind <;> simp [PieceKind.language, repeated]

/-- The second character of a lexeme, where the first does not tell the kind. -/
def PieceKind.second : PieceKind → Option Char → Prop
  | .mark, next => next = none
  | .lineComment, next => next = some '/'
  | .blockComment, next => next = some '*'
  | .pointFloat, next => ∃ d, next = some d ∧ isDigit d = true
  | _, _ => True

theorem second_head? {kind : PieceKind} {c : Char} {w : List Char}
    (member : c :: w ∈ kind.language) : kind.second w.head? := by
  cases kind with
  | mark => simp [PieceKind.second, (cons_mem_one.mp member).2]
  | pointFloat | lineComment | blockComment =>
    obtain ⟨d, rest, rfl, holds, -⟩ := mem_one_mul.mp (cons_mem_one_mul.mp member).2
    simpa [PieceKind.second] using holds
  | _ => trivial

theorem mem_leading_point {kind : PieceKind} :
    kind ∈ leading '.' ↔ kind = .pointFloat ∨ kind = .mark := by
  rw [show leading '.' = [.pointFloat, .mark] by decide]
  simp

theorem mem_leading_slash {kind : PieceKind} :
    kind ∈ leading '/' ↔ kind = .lineComment ∨ kind = .blockComment ∨ kind = .mark := by
  rw [show leading '/' = [.lineComment, .blockComment, .mark] by decide]
  simp

/-- Behind any other character there is no choice. -/
theorem leading_unique {c : Char} (noPoint : c ≠ '.') (noSlash : c ≠ '/') :
    ∀ one ∈ leading c, ∀ other ∈ leading c, one = other := by
  grind [leading]

/-- A lexeme is of one kind only: where the first character leaves a choice, the second tells. -/
theorem kind_unique {one other : PieceKind} {w : List Char} (member : w ∈ one.language)
    (also : w ∈ other.language) : one = other := by
  cases w with
  | nil => exact absurd member (nil_notMem_language one)
  | cons c rest =>
    have first := mem_leading member
    have first' := mem_leading also
    have second := second_head? member
    have second' := second_head? also
    clear member also
    by_cases point : c = '.'
    · rw [point, mem_leading_point] at first first'
      rcases first with rfl | rfl <;> rcases first' with rfl | rfl <;>
        simp_all [PieceKind.second]
    by_cases slash : c = '/'
    · rw [slash, mem_leading_slash] at first first'
      rcases first with rfl | rfl | rfl <;> rcases first' with rfl | rfl | rfl <;>
        simp_all [PieceKind.second]
    · exact leading_unique point slash _ first _ first'

end GoDecl.Source
