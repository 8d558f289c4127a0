import GoDecl.Proofs.Diagnostics
import GoDecl.Proofs.LongestMatch

/-! Floats that begin with a point. The normal form of such a float is the float with a zero in
front, which is its own normal form; so both are read alike, wherever they stand as a lexeme. -/
namespace GoDecl

namespace Source

open Text

/-- The exponent of a float that begins with a point, if there is one. -/
inductive PowerText : List Char → Prop where
  | none : PowerText []
  | unsigned {mark : Char} {digits : List Char} (isMark : isFloatMark mark = true)
      (all : ∀ c ∈ digits, isDigitOrUnderscore c = true) (nonempty : digits ≠ []) :
      PowerText (mark :: digits)
  | signed {mark sign : Char} {digits : List Char} (isMark : isFloatMark mark = true)
      (isSigned : isSign sign = true) (all : ∀ c ∈ digits, isDigitOrUnderscore c = true)
      (nonempty : digits ≠ []) : PowerText (mark :: sign :: digits)

theorem mem_pointFloat {w : List Char} (member : '.' :: w ∈ PieceKind.pointFloat.language) :
    ∃ d digits power, w = d :: (digits ++ power) ∧ isDigit d = true ∧
      (∀ c ∈ digits, isDigitOrUnderscore c = true) ∧ PowerText power := by
  obtain ⟨d, rest, rfl, digit, behind⟩ := mem_one_mul.mp (cons_mem_one_mul.mp member).2
  obtain ⟨digits, all, power, exponent, rfl⟩ := Language.mem_mul.mp behind
  refine ⟨d, digits, power, rfl, digit, mem_many.mp all, ?_⟩
  rcases mem_maybe.mp exponent with rfl | marked
  · exact .none
  obtain ⟨mark, rest, rfl, isMark, behind⟩ := mem_one_mul.mp marked
  obtain ⟨sign, signs, run, repeats, rfl⟩ := Language.mem_mul.mp behind
  obtain ⟨c, more, rfl, -, -⟩ := mem_one_mul.mp repeats
  have all : ∀ e ∈ c :: more, isDigitOrUnderscore e = true :=
    List.forall_mem_cons.mpr (cons_mem_repeated.mp repeats)
  rcases mem_maybe.mp signs with rfl | oneSign
  · exact .unsigned isMark all (List.cons_ne_nil c more)
  · obtain ⟨s, isSigned, rfl⟩ := oneSign
    exact .signed isMark isSigned all (List.cons_ne_nil c more)

/-- What cannot go on with a number. -/
def EndsNumber (rest : List Char) : Prop := ∀ c, rest.head? = some c → isAsciiWordPart c = false

theorem asciiWordPart_of_digit {c : Char} (digit : isDigitOrUnderscore c = true) :
    isAsciiWordPart c = true := by
  simp [isAsciiWordPart, digit]

theorem floatMark_cases {c : Char} (isMark : isFloatMark c = true) : c = 'e' ∨ c = 'E' := by
  simpa [isFloatMark] using isMark

theorem sign_cases {c : Char} (isSigned : isSign c = true) : c = '+' ∨ c = '-' := by
  simpa [isSign] using isSigned

/-- A number behind its point: the word characters there, and a signed exponent if their last is the
mark of one. -/
theorem numberRun_of_point {part after : List Char} (all : ∀ c ∈ part, isAsciiWordPart c = true)
    (ends : EndsNumber after) :
    numberRun ('.' :: (part ++ after)) =
      if ('.' :: part).getLast?.any isExponentMark
      then ('.' :: part ++ (signedRun after).1, (signedRun after).2)
      else ('.' :: part, after) := by
  have front (more : List Char) : run isAsciiWordPart ('.' :: more) = ([], '.' :: more) := rfl
  have taken := run_of_stop isAsciiWordPart part after all ends
  simp only [numberRun, front, taken]
  rfl

theorem noExponentMark (front : List Char) {digits : List Char}
    (all : ∀ c ∈ digits, isDigitOrUnderscore c = true) (nonempty : digits ≠ []) :
    (front ++ digits).getLast?.any isExponentMark = false := by
  have digit := all _ (List.getLast_mem nonempty)
  rw [List.getLast?_append_of_ne_nil front nonempty, List.getLast?_eq_some_getLast nonempty,
    Option.any_some]
  refine Bool.eq_false_iff.mpr fun mark => ?_
  simp only [isExponentMark, Bool.or_eq_true, decide_eq_true_eq] at mark
  rcases mark with ((same | same) | same) | same <;> rw [same] at digit <;> cases digit

section Lexemes

variable {rest : List Char} (ends : EndsNumber rest)

include ends

theorem EndsNumber.endsDigits : EndsDigits rest := by
  intro c first
  have other := ends c first
  simp only [isAsciiWordPart, Bool.or_eq_false_iff] at other
  exact other.1.1

theorem signedRun_ends {sign : Char} {digits : List Char} (isSigned : isSign sign = true)
    (all : ∀ c ∈ digits, isDigitOrUnderscore c = true) (nonempty : digits ≠ []) :
    signedRun (sign :: digits ++ rest) = (sign :: digits, rest) := by
  obtain ⟨c, more, rfl⟩ := List.exists_cons_of_ne_nil nonempty
  have taken := run_of_stop _ _ rest all ends.endsDigits
  have digit := all c List.mem_cons_self
  simp only [isSign] at isSigned
  simp only [List.cons_append] at taken ⊢
  simp [signedRun, isSigned, digit, taken]

theorem exponentRun_power {power : List Char} (text : PowerText power) :
    exponentRun (power ++ rest) = (power, rest) := by
  cases text with
  | none =>
    rw [List.nil_append]
    unfold exponentRun
    split
    · next more => exact absurd (ends 'e' rfl) (by decide)
    · next more => exact absurd (ends 'E' rfl) (by decide)
    · rfl
  | unsigned isMark all nonempty =>
    have taken := run_of_stop _ _ rest all ends.endsDigits
    obtain ⟨c, more, rfl⟩ := List.exists_cons_of_ne_nil nonempty
    simp only [List.cons_append] at taken
    rcases floatMark_cases isMark with rfl | rfl <;> simp [exponentRun, taken]
  | signed isMark isSigned all nonempty =>
    have taken := signedRun_ends ends isSigned all nonempty
    simp only [List.cons_append] at taken
    rcases floatMark_cases isMark with rfl | rfl <;> rcases sign_cases isSigned with rfl | rfl <;>
      simp [exponentRun, run, isDigitOrUnderscore, isDigit, taken]

/-- A float that begins with a point is the whole lexeme. -/
theorem firstPiece_pointFloat {w : List Char} (member : '.' :: w ∈ PieceKind.pointFloat.language) :
    firstPiece '.' (w ++ rest) = (⟨.pointFloat, '.' :: w⟩, rest) := by
  obtain ⟨d, digits, power, rfl, digit, all, text⟩ := mem_pointFloat member
  have stop : EndsDigits (power ++ rest) := by
    cases text with
    | none => exact ends.endsDigits
    | unsigned isMark | signed isMark =>
      rcases floatMark_cases isMark with rfl | rfl <;> exact .of_cons _ (by decide)
  obtain ⟨taken, left⟩ := Prod.mk.inj (run_of_stop _ digits (power ++ rest) all stop)
  rw [List.cons_append, List.append_assoc, firstPiece_point, if_pos digit, taken, left,
    exponentRun_power ends text]

theorem numberRun_point {d : Char} {digits power : List Char} (digit : isDigit d = true)
    (all : ∀ c ∈ digits, isDigitOrUnderscore c = true) (text : PowerText power) :
    numberRun ('.' :: d :: (digits ++ power) ++ rest) = ('.' :: d :: (digits ++ power), rest) := by
  have body : ∀ c ∈ d :: digits, isDigitOrUnderscore c = true :=
    List.forall_mem_cons.mpr ⟨by simp [isDigitOrUnderscore, digit], all⟩
  have word {part : List Char} (all : ∀ c ∈ part, isDigitOrUnderscore c = true) :
      ∀ c ∈ part, isAsciiWordPart c = true := fun c member => asciiWordPart_of_digit (all c member)
  have marked {mark : Char} (isMark : isFloatMark mark = true) :
      ∀ c ∈ d :: digits ++ [mark], isAsciiWordPart c = true := by
    refine List.forall_mem_append.mpr ⟨word body, List.forall_mem_singleton.mpr ?_⟩
    rcases floatMark_cases isMark with rfl | rfl <;> rfl
  cases text with
  | none =>
    have last : ('.' :: d :: digits).getLast?.any isExponentMark = false :=
      noExponentMark ['.'] body (List.cons_ne_nil d digits)
    have written := numberRun_of_point (word body) ends
    rw [last, if_neg Bool.false_ne_true] at written
    simpa using written
  | @unsigned mark more isMark allMore nonempty =>
    have part := List.forall_mem_append.mpr ⟨marked isMark, word allMore⟩
    have last : ('.' :: (d :: digits ++ [mark] ++ more)).getLast?.any isExponentMark = false :=
      noExponentMark ('.' :: (d :: digits ++ [mark])) allMore nonempty
    have written := numberRun_of_point part ends
    rw [last, if_neg Bool.false_ne_true] at written
    simpa using written
  | @signed mark sign more isMark isSigned allMore nonempty =>
    -- The run of word characters ends with the mark, so that a sign may follow.
    have signEnds : EndsNumber (sign :: more ++ rest) := by
      rintro _ ⟨⟩
      rcases sign_cases isSigned with rfl | rfl <;> rfl
    have last : ('.' :: (d :: digits ++ [mark])).getLast?.any isExponentMark = true := by
      rw [← List.cons_append, List.getLast?_concat]
      rcases floatMark_cases isMark with rfl | rfl <;> rfl
    have written := numberRun_of_point (marked isMark) signEnds
    rw [if_pos last, signedRun_ends ends isSigned allMore nonempty] at written
    simpa using written

/-- With a zero in front the float is one number. -/
theorem firstPiece_zeroFloat {w : List Char} (member : '.' :: w ∈ PieceKind.pointFloat.language) :
    firstPiece '0' ('.' :: w ++ rest) = (⟨.number, '0' :: '.' :: w⟩, rest) := by
  obtain ⟨d, digits, power, rfl, digit, all, text⟩ := mem_pointFloat member
  have number (more : List Char) :
      firstPiece '0' more = (⟨.number, '0' :: (numberRun more).1⟩, (numberRun more).2) := rfl
  rw [number, numberRun_point ends digit all text]

end Lexemes

/-- A lexeme ends between two texts. -/
def CutBetween (before rest : List Char) : Prop :=
  pieces (before ++ rest) = pieces before ++ pieces rest

instance (before rest : List Char) : Decidable (CutBetween before rest) :=
  inferInstanceAs (Decidable (_ = _))

theorem CutBetween.normal {before rest : List Char} (cut : CutBetween before rest) :
    normal (before ++ rest) = normal before ++ normal rest := by
  rw [normal_eq, normal_eq, normal_eq, normalPieces, cut, List.flatMap_append]
  rfl

/-- A float that begins with a point and the one with a zero in front have the same normal form. -/
theorem normal_zeroFloat {w : List Char} (member : '.' :: w ∈ PieceKind.pointFloat.language)
    {before after : List Char} (ends : EndsNumber after)
    (cut : CutBetween before ('.' :: w ++ after))
    (cutZero : CutBetween before ('0' :: '.' :: w ++ after)) :
    normal (before ++ ('.' :: w ++ after)) = normal (before ++ ('0' :: '.' :: w ++ after)) := by
  have alike : normal ('.' :: w ++ after) = normal ('0' :: '.' :: w ++ after) := by
    rw [normal_eq, normal_eq, List.cons_append, List.cons_append, normalPieces_cons,
      normalPieces_cons, firstPiece_pointFloat ends member, firstPiece_zeroFloat ends member]
    rfl
  rw [cut.normal, cutZero.normal, alike]

end Source

/-- What is reported of an error without the line that is shown with it. -/
def ParseError.told (e : ParseError) : String × Option Location := (e.message, e.location)

theorem Grammar.readText_told {α : Type} (reader : Parser α) (text shown other : List Char) :
    (readText reader text shown).mapError ParseError.told =
      (readText reader text other).mapError ParseError.told := by
  unfold readText
  cases Token.lex text with
  | error place => rfl
  | ok tokens =>
    cases read : readAll reader tokens with
    | ok result => simp only [read]
    | error fault => cases fault <;> simp only [read] <;> rfl

/-- A float that begins with a point is read like the float with a zero in front, wherever both are
lexemes: with the same declarations, or with the same error at the same place. -/
theorem Declaration.parse_pointFloat {w : List Char}
    (member : '.' :: w ∈ Source.PieceKind.pointFloat.language) {before after : List Char}
    (ends : Source.EndsNumber after) (cut : Source.CutBetween before ('.' :: w ++ after))
    (cutZero : Source.CutBetween before ('0' :: '.' :: w ++ after)) :
    (parse (.ofList (before ++ ('.' :: w ++ after)))).mapError ParseError.told =
      (parse (.ofList (before ++ ('0' :: '.' :: w ++ after)))).mapError ParseError.told := by
  simp only [parse, String.toList_ofList]
  rw [Source.normal_zeroFloat member ends cut cutZero]
  exact Grammar.readText_told _ _ _ _

end GoDecl
