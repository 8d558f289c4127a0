import GoDecl.Token.Lexer

/-! From text to a row of tokens without brackets, one lexeme at a time. Where the tokens stand does
not matter to what is read from them, so their places are left open. -/
namespace GoDecl.Token

open Text

/-- A text that begins with something else than a gap, a comment or a bracket. -/
structure Opens (text : List Char) : Prop where
  begins : ∃ c rest, text = c :: rest ∧ isTokenGap c = false ∧ delimiter? c = none
  noComment : comment? text = none

theorem Opens.of_cons {c : Char} (rest : List Char) (noGap : isTokenGap c = false)
    (noBracket : delimiter? c = none) (noSlash : c ≠ '/') : Opens (c :: rest) where
  begins := ⟨c, rest, rfl, noGap, noBracket⟩
  noComment := by simp [comment?, noSlash]

/-- A text that is a leaf token and what comes after it. -/
structure Leads (text : List Char) (make : Position → Token) (after : List Char) : Prop
    extends Opens text where
  read : ∀ p, leaf? p text = some (make p, after)
  shorter : after.length < text.length

/-- The error mark begins with a bracket, so nothing else that opens a text is it. -/
theorem noErrorMark {c : Char} (noBracket : delimiter? c = none) (rest : List Char) :
    errorMark.isPrefixOf? (c :: rest) = none ∧ bracket? (c :: rest) = none := by
  have noParen : '(' ≠ c := by
    rintro rfl
    simp [delimiter?] at noBracket
  have noMark : ('(' == c) ≠ true := by simpa using noParen
  exact ⟨if_neg noMark, by simp [errorMark, bracket?, noBracket, noParen]⟩

theorem cut_gap {c : Char} (between : isTokenGap c = true) (rest : List Char) (fuel : Nat)
    (p : Position) : cut (fuel + 1) p (c :: rest) = cut fuel (p.step c) rest := by
  simp [cut, between]

theorem cut_opens {text : List Char} (opens : Opens text) (fuel : Nat) (p : Position) :
    cut (fuel + 1) p text =
      match leaf? p text with
      | some (t, after) =>
        let next := cut fuel (p.after (readPart text after)) after
        (.leaf t :: next.1, next.2)
      | none => ([], some p) := by
  obtain ⟨⟨c, rest, rfl, noGap, noBracket⟩, noComment⟩ := opens
  simp only [cut, noGap, noComment, (noErrorMark noBracket rest).2, Bool.false_eq_true, if_false]
  cases leaf? p (c :: rest) <;> rfl

/-- Wherever the text stands, the leaf tokens that are cut off its front are as `row` asks for, and
what comes behind them is as `behind` asks for. -/
def CutsInto (behind : List Lexeme → Option Position → Prop) (text : List Char)
    (row : List Token → Prop) : Prop :=
  ∀ p fuel, text.length < fuel → ∃ tokens more fault,
    cut fuel p text = (tokens.map .leaf ++ more, fault) ∧ row tokens ∧ behind more fault

namespace CutsInto

variable {behind : List Lexeme → Option Position → Prop} {row : List Token → Prop}

theorem imp {text : List Char} {other : List Token → Prop} (cuts : CutsInto behind text row)
    (weaker : ∀ tokens, row tokens → other tokens) : CutsInto behind text other := by
  intro p fuel enough
  obtain ⟨tokens, more, fault, cutText, holds, rest⟩ := cuts p fuel enough
  exact ⟨tokens, more, fault, cutText, weaker tokens holds, rest⟩

theorem gap {c : Char} {rest : List Char} (between : isTokenGap c = true)
    (cuts : CutsInto behind rest row) : CutsInto behind (c :: rest) row := by
  intro p fuel enough
  obtain ⟨fuel, rfl⟩ : ∃ less, fuel = less + 1 := ⟨fuel - 1, by simp at enough; omega⟩
  rw [cut_gap between]
  exact cuts (p.step c) fuel (by simpa using enough)

theorem leaf {text after : List Char} {make : Position → Token} (leads : Leads text make after)
    (cuts : CutsInto behind after row) :
    CutsInto behind text fun tokens => ∃ p more, tokens = make p :: more ∧ row more := by
  intro p fuel enough
  have shorter := leads.shorter
  obtain ⟨fuel, rfl⟩ : ∃ less, fuel = less + 1 := ⟨fuel - 1, by omega⟩
  obtain ⟨tokens, more, fault, cutAfter, holds, rest⟩ :=
    cuts (p.after (readPart text after)) fuel (by omega)
  refine ⟨make p :: tokens, more, fault, ?_, ⟨p, tokens, rfl, holds⟩, rest⟩
  simp [cut_opens leads.toOpens, leads.read, cutAfter]

end CutsInto

/-- The text is cut without a fault into leaf tokens alone. -/
abbrev Yields : List Char → (List Token → Prop) → Prop :=
  CutsInto fun more fault => more = [] ∧ fault = none

theorem Yields.nil : Yields [] (· = []) := by
  intro p fuel enough
  obtain ⟨fuel, rfl⟩ : ∃ less, fuel = less + 1 := ⟨fuel - 1, by simp at enough; omega⟩
  exact ⟨[], [], none, rfl, rfl, rfl, rfl⟩

/-- Cutting the text comes to a fault. -/
abbrev Breaks (text : List Char) : Prop :=
  CutsInto (fun _ fault => fault ≠ none) text fun _ => True

theorem Breaks.leaf {text after : List Char} {make : Position → Token}
    (leads : Leads text make after) (breaks : Breaks after) : Breaks text :=
  (CutsInto.leaf leads breaks).imp fun _ _ => trivial

theorem Breaks.here {text : List Char} (opens : Opens text) (unread : ∀ p, leaf? p text = none) :
    Breaks text := by
  intro p fuel enough
  obtain ⟨fuel, rfl⟩ : ∃ less, fuel = less + 1 := ⟨fuel - 1, by omega⟩
  exact ⟨[], [], some p, by rw [cut_opens opens, unread]; rfl, trivial, nofun⟩

theorem nest_leaves (done tokens : List Token) :
    nest none done [] (tokens.map .leaf) = .ok (done.reverse ++ tokens) := by
  induction tokens generalizing done with
  | nil => simp [nest]
  | cons t rest ih => simp [nest, ih]

/-- A fault spoils the row, whatever brackets come before it. -/
theorem nest_fault (p : Position) (done : List Token) (outer : List Open) (row : List Lexeme) :
    ∃ place, nest (some p) done outer row = .error place := by
  induction row generalizing done outer with
  | nil => exact ⟨p, rfl⟩
  | cons lexeme rest ih =>
    cases lexeme with
    | leaf t => exact ih (t :: done) outer
    | opening d q => exact ih [] (⟨d, q, done⟩ :: outer)
    | closing d q =>
      cases outer with
      | nil => exact ⟨q, rfl⟩
      | cons o outer =>
        by_cases same : o.delimiter = d
        · simpa [nest, same] using ih (.group d done.reverse o.start q :: o.before) outer
        · exact ⟨q, by simp [nest, same]⟩

/-- Without a byte order mark, a text is cut from its first place on. -/
theorem lex_unmarked (text : List Char) (unmarked : text.head? ≠ some '\ufeff') :
    lex text =
      nest (cut (text.length + 1) {} text).2 [] [] (cut (text.length + 1) {} text).1 := by
  cases text with
  | nil => rfl
  | cons c rest =>
    have other : c ≠ '\ufeff' := by simpa using unmarked
    simp [lex, other]

theorem lex_of_yields {text : List Char} {row : List Token → Prop} (yields : Yields text row)
    (unmarked : text.head? ≠ some '\ufeff') : ∃ tokens, lex text = .ok tokens ∧ row tokens := by
  obtain ⟨tokens, _, _, cutText, holds, rfl, rfl⟩ :=
    yields {} (text.length + 1) (Nat.lt_succ_self _)
  refine ⟨tokens, ?_, holds⟩
  rw [lex_unmarked text unmarked, cutText, List.append_nil]
  exact nest_leaves [] tokens

theorem lex_of_breaks {text : List Char} (breaks : Breaks text)
    (unmarked : text.head? ≠ some '\ufeff') : ∃ place, lex text = .error place := by
  obtain ⟨_, _, fault, cutText, -, broken⟩ := breaks {} (text.length + 1) (Nat.lt_succ_self _)
  obtain ⟨p, rfl⟩ := Option.ne_none_iff_exists'.mp broken
  rw [lex_unmarked text unmarked, cutText]
  exact nest_fault p [] [] _

theorem isDigit_of_hexValue?_none {c : Char} (noDigit : hexValue? c = none) :
    isDigit c = false := by
  unfold hexValue? at noDigit
  split at noDigit
  · contradiction
  · next h => simpa using h

/-- A hexadecimal digit that is no decimal one stands for ten or more. -/
theorem ten_le_hexValue? {c : Char} (noDigit : isDigit c = false) {d : Nat}
    (known : hexValue? c = some d) : 10 ≤ d := by
  simp only [hexValue?, noDigit, Bool.false_eq_true, if_false] at known
  split at known
  · cases known
    exact Nat.le_add_left ..
  · split at known
    · cases known
      exact Nat.le_add_left ..
    · cases known

/-- Numbers begin with digits. -/
theorem noNumber_of_noDigit {c : Char} (rest : List Char) (noDigit : isDigit c = false) :
    afterFloat? (c :: rest) = none ∧ afterInt? (c :: rest) = none := by
  have notZero : c ≠ '0' := by rintro rfl; simp [isDigit] at noDigit
  have decimal : radix (c :: rest) = (10, c :: rest) := by simp [radix, notZero]
  have noDigits : readDigits 10 0 false (c :: rest) = none := by
    unfold readDigits
    split
    · rfl
    · rfl
    · next known =>
      cases known
      split
      · next d value =>
        have large := ten_le_hexValue? noDigit value
        simp [Nat.not_lt.mpr large, noDigit]
      · rfl
  exact ⟨by simp [afterFloat?, afterFloatDigits?, startsWithDigit, noDigit],
    by simp [afterInt?, readInt?, decimal, noDigits]⟩

/-- Neither a number nor a quoted literal begins with such a character. -/
theorem literal?_eq_none (c : Char) (rest : List Char)
    (plain : c ∉ ['\x22', 'r', 'b', 'c', '\x27']) (noDigit : hexValue? c = none) :
    literal? (c :: rest) = none := by
  obtain ⟨noFloat, noInt⟩ := noNumber_of_noDigit rest (isDigit_of_hexValue?_none noDigit)
  simp only [List.mem_cons, List.not_mem_nil, or_false, not_or] at plain
  obtain ⟨notDouble, notR, notB, notC, notSingle⟩ := plain
  simp [literal?, *]

theorem mark?_cons (c : Char) (rest : List Char) (known : c ∈ punctuation) (noSlash : c ≠ '/') :
    mark? (c :: rest) = some (c, rest) := by
  simp [mark?, known, noSlash]

/-- Marks are neither gaps nor brackets, and but for the single quote they open no literal. -/
theorem punctuation_opens {c : Char} (known : c ∈ punctuation) (noQuote : c ≠ '\x27') :
    isTokenGap c = false ∧ delimiter? c = none ∧ hexValue? c = none ∧
      c ∉ ['\x22', 'r', 'b', 'c', '\x27'] := by
  have all : punctuation.all (fun d => !isTokenGap d && (delimiter? d).isNone &&
      (hexValue? d).isNone && (d = '\x27' || d ∉ ['\x22', 'r', 'b', 'c', '\x27'])) = true := by
    decide
  have holds := List.all_eq_true.mp all c known
  simpa [noQuote, and_assoc] using holds

/-- A mark that opens neither a comment nor a lifetime. -/
theorem leaf?_mark (p : Position) (c : Char) (rest : List Char) (known : c ∈ punctuation)
    (noSlash : c ≠ '/') (noQuote : c ≠ '\x27') :
    leaf? p (c :: rest) = some (.punct c (mark? rest).isSome p, rest) := by
  obtain ⟨-, -, noDigit, plain⟩ := punctuation_opens known noQuote
  simp [leaf?, literal?_eq_none c rest plain noDigit, punct?, mark?_cons c rest known noSlash,
    noQuote]

theorem Leads.mark (c : Char) (rest : List Char) (known : c ∈ punctuation) (noSlash : c ≠ '/')
    (noQuote : c ≠ '\x27') : Leads (c :: rest) (.punct c (mark? rest).isSome) rest where
  toOpens := by
    obtain ⟨noGap, noBracket, -, -⟩ := punctuation_opens known noQuote
    exact .of_cons rest noGap noBracket noSlash
  read p := leaf?_mark p c rest known noSlash noQuote
  shorter := Nat.lt_succ_self _

theorem readPart_append (text rest : List Char) : readPart (text ++ rest) rest = text := by
  simp [readPart]

theorem afterWord?_append (c : Char) (word rest : List Char) (start : isWordStart c = true)
    (part : ∀ d ∈ word, isWordPart d = true)
    (apart : ∀ d, rest.head? = some d → isWordPart d = false) :
    afterWord? (c :: (word ++ rest)) = some rest := by
  have stop : rest.dropWhile isWordPart = rest := by
    cases rest with
    | nil => rfl
    | cons d more => simp [apart d rfl]
  simp [afterWord?, start, List.dropWhile_append_of_pos part, stop]

/-- A word whose first character opens no literal. -/
theorem leaf?_word (p : Position) (c : Char) (word rest : List Char)
    (plain : c ∉ ['\x22', 'r', 'b', 'c', '\x27']) (noDigit : hexValue? c = none)
    (noMark : c ∉ punctuation) (start : isWordStart c = true)
    (part : ∀ d ∈ word, isWordPart d = true)
    (apart : ∀ d, rest.head? = some d → isWordPart d = false) :
    leaf? p (c :: (word ++ rest)) = some (.word (.ofList (c :: word)) p, rest) := by
  have unread := literal?_eq_none c (word ++ rest) plain noDigit
  have noPunct : punct? (c :: (word ++ rest)) = none := by
    have noSlash : c ≠ '/' := by rintro rfl; simp [punctuation] at noMark
    simp [punct?, mark?, noMark, noSlash]
  simp only [List.mem_cons, List.not_mem_nil, or_false, not_or] at plain
  obtain ⟨-, notR, notB, notC, -⟩ := plain
  have noLiteral : opensLiteral (c :: (word ++ rest)) = false := by
    simp [opensLiteral, notR, notB, notC]
  have written : readPart (c :: (word ++ rest)) rest = c :: word := readPart_append (c :: word) rest
  have read : anyWord? (c :: (word ++ rest)) = some (c :: word, rest) := by
    simp [anyWord?, notR, afterWord?_append c word rest start part apart, written]
  simp [leaf?, unread, noPunct, word?, noLiteral, read]

end GoDecl.Token
