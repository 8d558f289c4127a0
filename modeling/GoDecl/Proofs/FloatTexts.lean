import GoDecl.Proofs.FloatParts
import GoDecl.Proofs.IntegerTexts
import GoDecl.Proofs.LeadingPoint
import GoDecl.Proofs.Nearest
import GoDecl.Proofs.TokenPlaces

/-! Floats as texts. A plain float is one token, and its value is the number nearest to what is
written. A float token that is not plain has no value. -/
namespace GoDecl

open Text Token Source

/-- What may stand behind a number. -/
theorem noPart_of_wordBreak {rest : List Char} (wordBreak : atWordBreak rest = true) {c : Char}
    (first : rest.head? = some c) : isWordPart c = false := by
  cases rest with
  | nil => cases first
  | cons d more =>
    obtain rfl : d = c := by simpa using first
    simpa [atWordBreak] using wordBreak

theorem Source.EndsDigits.of_wordBreak {rest : List Char} (wordBreak : atWordBreak rest = true) :
    EndsDigits rest := by
  intro c first
  have noPart := noPart_of_wordBreak wordBreak first
  refine Bool.eq_false_iff.mpr fun digit => ?_
  have ascii : isAsciiWordPart c = true := by simp [isAsciiWordPart, digit]
  rw [(wordPart_of_ascii c ascii).1] at noPart
  cases noPart

theorem afterSuffix_of_wordBreak {rest : List Char} (wordBreak : atWordBreak rest = true) :
    afterSuffix rest = rest := by
  cases rest with
  | nil => rfl
  | cons c more =>
    have noPart := noPart_of_wordBreak wordBreak (c := c) rfl
    simp only [isWordPart, Bool.or_eq_false_iff] at noPart
    simp [afterSuffix, afterWord?, noPart.1.1.1.1]

/-- What is behind the digits of a float: an exponent is taken along if it is complete. -/
def afterPower? (rest : List Char) (otherwise : Option (List Char)) : Option (List Char) :=
  match rest with
  | 'e' :: more | 'E' :: more => (afterExponent? more).or otherwise
  | _ => otherwise

theorem afterPower?_suffix {rest left : List Char} {otherwise : Option (List Char)}
    (scan : afterPower? rest otherwise = some left) : left <:+ rest ∨ otherwise = some left := by
  have power {c : Char} {more : List Char}
      (scan : (afterExponent? more).or otherwise = some left) :
      left <:+ c :: more ∨ otherwise = some left := by
    rcases Option.or_eq_some_iff.mp scan with taken | ⟨-, same⟩
    · exact .inl ((leaves_afterExponent? more left taken).trans (List.suffix_cons c more))
    · exact .inr same
  unfold afterPower? at scan
  split at scan
  · exact power scan
  · exact power scan
  · exact .inr scan

theorem afterFloatDigits?_of_point {text more : List Char} (digit : startsWithDigit text = true)
    (point : text.dropWhile isDigitOrUnderscore = '.' :: more) :
    afterFloatDigits? text =
      if splitsAtPoint more then none
      else afterPower? (more.dropWhile isDigitOrUnderscore)
        (some (more.dropWhile isDigitOrUnderscore)) := by
  simp only [afterFloatDigits?, digit, point]
  rfl

theorem afterFloatDigits?_of_noPoint {text : List Char} (digit : startsWithDigit text = true)
    (noPoint : ∀ more, text.dropWhile isDigitOrUnderscore ≠ '.' :: more) :
    afterFloatDigits? text = afterPower? (text.dropWhile isDigitOrUnderscore) none := by
  dsimp only [afterFloatDigits?]
  rw [digit, Bool.not_true, if_neg Bool.false_ne_true]
  split
  next more point => exact absurd point (noPoint more)
  rfl

section Tokens

variable {rest : List Char} (wordBreak : atWordBreak rest = true)

include wordBreak

theorem afterExponent?_power (p : Power) :
    afterExponent? (p.sign.toList ++ (p.digits ++ rest)) = some rest := by
  obtain ⟨c, more, same⟩ := List.exists_cons_of_ne_nil p.nonempty
  have digit := p.all c (by simp [same])
  have noLine : c ≠ '_' := by rintro rfl; exact absurd digit (by decide)
  have noPlus : c ≠ '+' := by rintro rfl; exact absurd digit (by decide)
  have noMinus : c ≠ '-' := by rintro rfl; exact absurd digit (by decide)
  obtain ⟨-, left⟩ := Prod.mk.inj (run_digits p.all (.of_wordBreak wordBreak)).2
  rw [same, List.cons_append] at left ⊢
  cases sign : p.sign with
  | none => simp [afterExponent?, noLine, noPlus, noMinus, startsWithDigit, digit, left]
  | some s =>
    rcases p.isSign s sign with rfl | rfl <;>
      simp [afterExponent?, noLine, startsWithDigit, digit, left]

theorem afterPower?_power (power : Option Power) (otherwise : Option (List Char)) :
    afterPower? (power.elim [] Power.text ++ rest) otherwise =
      if power = none then otherwise else some rest := by
  cases power with
  | none =>
    rw [if_pos rfl, Option.elim_none, List.nil_append]
    unfold afterPower?
    split
    · next more => exact absurd (noPart_of_wordBreak wordBreak rfl) (by decide +kernel)
    · next more => exact absurd (noPart_of_wordBreak wordBreak rfl) (by decide +kernel)
    · rfl
  | some p =>
    have power := afterExponent?_power wordBreak p
    rcases p.isMark with same | same <;> simp [afterPower?, Power.text, same, power]

section Parts

variable (d : DecimalParts) (nonempty : d.whole ≠ [])

omit wordBreak in
include nonempty in
theorem startsWithDigit_text : startsWithDigit (d.text ++ rest) = true := by
  obtain ⟨c, more, same⟩ := List.exists_cons_of_ne_nil nonempty
  simp [DecimalParts.text, same, startsWithDigit, d.wholeDigits c (by simp [same])]

theorem ends_powerText_append : EndsDigits (d.powerText ++ rest) := by
  rw [DecimalParts.powerText]
  cases d.power with
  | none => exact .of_wordBreak wordBreak
  | some p => exact p.ends_text rest

theorem ends_text_append : EndsDigits (d.pointText ++ (d.powerText ++ rest)) := by
  rw [DecimalParts.pointText]
  cases d.fraction with
  | none => exact ends_powerText_append wordBreak d
  | some f => exact .of_cons _ (by decide)

theorem DecimalParts.nonempty_of_scan {left : List Char}
    (scan : afterFloatDigits? (d.text ++ rest) = some left) : d.whole ≠ [] := by
  intro none
  have ends := ends_text_append wordBreak d
  have text : d.text ++ rest = d.pointText ++ (d.powerText ++ rest) := by
    simp [DecimalParts.text, none]
  have noDigit : startsWithDigit (d.text ++ rest) = false := by
    rw [text]
    cases first : d.pointText ++ (d.powerText ++ rest) with
    | nil => rfl
    | cons c more =>
      have other := ends c (by rw [first]; rfl)
      simp only [isDigitOrUnderscore, Bool.or_eq_false_iff] at other
      exact other.1
  simp [afterFloatDigits?, noDigit] at scan

include nonempty

/-- With a point, the scan ends behind the parts, or there is none. -/
theorem afterFloatDigits?_fraction {f : List Char} (point : d.fraction = some f) :
    afterFloatDigits? (d.text ++ rest) =
      if splitsAtPoint (f ++ (d.powerText ++ rest)) then none else some rest := by
  have ends := ends_powerText_append wordBreak d
  have text : d.text ++ rest = d.whole ++ '.' :: (f ++ (d.powerText ++ rest)) := by
    simp [DecimalParts.text, DecimalParts.pointText, point]
  obtain ⟨-, fraction⟩ := Prod.mk.inj (run_digits (d.fractionDigits f point) ends).2
  obtain ⟨-, whole⟩ := Prod.mk.inj (run_digits d.wholeDigits
    (.of_cons (c := '.') (f ++ (d.powerText ++ rest)) (by decide))).2
  rw [afterFloatDigits?_of_point (startsWithDigit_text d nonempty) (text ▸ whole), fraction]
  congr 1
  rw [DecimalParts.powerText, afterPower?_power wordBreak]
  split
  · next none => rw [none, Option.elim_none, List.nil_append]
  · rfl

/-- Without a point, the scan ends behind the exponent. -/
theorem afterFloatDigits?_power (noPoint : d.fraction = none) (power : d.power ≠ none) :
    afterFloatDigits? (d.text ++ rest) = some rest := by
  have ends := ends_powerText_append wordBreak d
  have text : d.text ++ rest = d.whole ++ (d.powerText ++ rest) := by
    simp [DecimalParts.text, DecimalParts.pointText, noPoint]
  obtain ⟨-, whole⟩ := Prod.mk.inj (run_digits d.wholeDigits ends).2
  have other (more : List Char) :
      (d.text ++ rest).dropWhile isDigitOrUnderscore ≠ '.' :: more := by
    obtain ⟨p, some⟩ := Option.ne_none_iff_exists'.mp power
    rw [text, whole, DecimalParts.powerText, some]
    exact p.text_noPoint rest more
  rw [afterFloatDigits?_of_noPoint (startsWithDigit_text d nonempty) other, text, whole,
    DecimalParts.powerText, afterPower?_power wordBreak, if_neg power]

/-- Behind digits alone, the scan needs a point and goes past it. -/
theorem afterFloatDigits?_digits (noPoint : d.fraction = none) (noPower : d.power = none)
    {left : List Char} (scan : afterFloatDigits? (d.text ++ rest) = some left) :
    left.length < rest.length := by
  have text : d.text ++ rest = d.whole ++ rest := by
    simp [DecimalParts.text, DecimalParts.pointText, DecimalParts.powerText, noPoint, noPower]
  obtain ⟨-, whole⟩ := Prod.mk.inj (run_digits d.wholeDigits (.of_wordBreak wordBreak)).2
  rw [← text] at whole
  by_cases point : ∃ more, rest = '.' :: more
  · obtain ⟨more, rfl⟩ := point
    rw [afterFloatDigits?_of_point (startsWithDigit_text d nonempty) whole] at scan
    split at scan
    · cases scan
    · have behind : left <:+ more := by
        rcases afterPower?_suffix scan with power | ⟨⟨⟩⟩
        · exact power.trans (List.dropWhile_suffix _)
        · exact List.dropWhile_suffix _
      exact Nat.lt_succ_of_le behind.length_le
  · have noMark (more : List Char) :
        (d.text ++ rest).dropWhile isDigitOrUnderscore ≠ '.' :: more := by
      rw [whole]
      exact not_exists.mp point more
    have none := afterPower?_power wordBreak none none
    rw [afterFloatDigits?_of_noPoint (startsWithDigit_text d nonempty) noMark, whole] at scan
    rw [Option.elim_none, List.nil_append, scan] at none
    cases none

end Parts

end Tokens

theorem isWordStart_of_digit {c : Char} (digit : isDigit c = true) : isWordStart c = false :=
  forall_asciiWordPart (P := fun c => isDigit c = true → isWordStart c = false) (by decide) c
    (by simp [isAsciiWordPart, isDigitOrUnderscore, digit]) digit

theorem splitsAtPoint_digits {f : List Char} (all : ∀ c ∈ f, isDigit c = true) (some : f ≠ [])
    (rest : List Char) : splitsAtPoint (f ++ rest) = false := by
  obtain ⟨c, more, rfl⟩ := List.exists_cons_of_ne_nil some
  have digit := all c List.mem_cons_self
  have noPoint : c ≠ '.' := by rintro rfl; exact absurd digit (by decide)
  simp [splitsAtPoint, noPoint, isWordStart_of_digit digit]

/-- With a digit in front a literal is a float, or else an integer. -/
theorem literal?_number {c : Char} (digit : isDigit c = true) (more : List Char) :
    literal? (c :: more) =
      match afterFloat? (c :: more) with
      | some rest => some (.float (.ofList (readPart (c :: more) rest)), rest)
      | none => (afterInt? (c :: more)).map fun rest =>
        (.int (.ofList (readPart (c :: more) rest)), rest) := by
  have plain := (opensNumber digit).noQuote
  simp only [List.mem_cons, List.not_mem_nil, or_false, not_or] at plain
  obtain ⟨notDouble, notR, notB, notC, notSingle⟩ := plain
  cases float : afterFloat? (c :: more) <;> cases int : afterInt? (c :: more) <;>
    simp [literal?, *]

namespace FloatText

variable {rest : List Char} (wordBreak : atWordBreak rest = true)

include wordBreak

/-- A plain float is scanned to its end. Only a bare point looks at what follows it. -/
theorem afterFloatDigits?_text (d : FloatText)
    (noPoint : d.fraction = some [] → splitsAtPoint rest = false) :
    afterFloatDigits? (d.text ++ rest) = some rest := by
  cases point : d.fraction with
  | none =>
    have power : d.power ≠ none := d.marked.resolve_left (not_not.mpr point)
    exact afterFloatDigits?_power wordBreak _ d.nonempty point power
  | some f =>
    have goesOn : splitsAtPoint (f ++ (d.powerText ++ rest)) = false := by
      rcases eq_or_ne f [] with rfl | some
      · rw [DecimalParts.powerText, d.apart point]
        exact noPoint point
      · exact splitsAtPoint_digits (d.fractionDigits f point) some _
    rw [afterFloatDigits?_fraction wordBreak _ d.nonempty point, goesOn,
      if_neg Bool.false_ne_true]

/-- Where the scan of a decimal finds a float and goes no further than its parts, it is plain. -/
theorem of_scan (d : DecimalParts) (nonempty : d.whole ≠ []) {suffix : List Char}
    (scan : afterFloatDigits? (d.text ++ rest) = some (suffix ++ rest)) :
    suffix = [] ∧ ∃ f : FloatText, f.text = d.text := by
  cases point : d.fraction with
  | none =>
    by_cases power : d.power = none
    · have shorter := afterFloatDigits?_digits wordBreak d nonempty point power scan
      rw [List.length_append] at shorter
      omega
    · rw [afterFloatDigits?_power wordBreak d nonempty point power, Option.some.injEq,
        List.self_eq_append_left] at scan
      exact ⟨scan, ⟨d, nonempty, .inr power, by simp [point]⟩, rfl⟩
  | some f =>
    rw [afterFloatDigits?_fraction wordBreak d nonempty point] at scan
    split at scan
    · cases scan
    · next goesOn =>
      rw [Option.some.injEq, List.self_eq_append_left] at scan
      refine ⟨scan, ⟨d, nonempty, .inl (by simp [point]), fun bare => ?_⟩, rfl⟩
      obtain rfl : f = [] := by simpa [point] using bare
      -- The mark of an exponent begins a word, and no word may follow the point.
      by_contra power
      obtain ⟨p, some⟩ := Option.ne_none_iff_exists'.mp power
      refine goesOn ?_
      rw [DecimalParts.powerText, some]
      rcases p.isMark with same | same <;> simp [Power.text, same, splitsAtPoint] <;> decide

/-- A plain float is one token, wherever it stands. -/
theorem literal?_text (d : FloatText)
    (noPoint : d.fraction = some [] → splitsAtPoint rest = false) :
    literal? (d.text ++ rest) = some (.float (.ofList d.text), rest) := by
  have float : afterFloat? (d.text ++ rest) = some rest := by
    simp [afterFloat?, d.afterFloatDigits?_text wordBreak noPoint,
      afterSuffix_of_wordBreak wordBreak, wordBreak]
  have written := readPart_append d.text rest
  obtain ⟨c, digits, same⟩ := List.exists_cons_of_ne_nil d.nonempty
  have digit := d.wholeDigits c (by simp [same])
  have shape : d.text ++ rest = c :: (digits ++ d.pointText ++ d.powerText ++ rest) := by
    simp [DecimalParts.text, same]
  rw [shape, literal?_number digit, ← shape, float]
  simp only [written]

end FloatText

/-- A float token is what the scan of a float takes with its suffix. -/
theorem literal?_float {source rest : List Char} {text : String}
    (read : literal? source = some (.float text, rest)) :
    afterFloat? source = some rest ∧ source = text.toList ++ rest := by
  have float : afterFloat? source = some rest ∧ text = .ofList (readPart source rest) := by
    unfold literal? at read
    split at read
    case h_9 =>
      split at read
      · next found => cases read; exact ⟨found, rfl⟩
      · obtain ⟨_, -, ⟨⟩⟩ := Option.bind_eq_some_iff.mp read
    all_goals obtain ⟨⟨_, _⟩, -, ⟨⟩⟩ := Option.bind_eq_some_iff.mp read
  obtain ⟨front, same⟩ := leaves_afterFloat? source rest float.1
  refine ⟨float.1, ?_⟩
  rw [float.2, ← same]
  simp [readPart_append]

/-- A float token is a number and a suffix. -/
theorem literal?_float_parts {source rest : List Char} {text : String}
    (read : literal? source = some (.float text, rest)) :
    ∃ number suffix, text.toList = number ++ suffix ∧
      afterFloatDigits? source = some (suffix ++ rest) ∧ atWordBreak rest = true := by
  obtain ⟨scan, whole⟩ := literal?_float read
  obtain ⟨left, digits, ends⟩ := Option.bind_eq_some_iff.mp scan
  dsimp only at ends
  split at ends
  case isFalse => cases ends
  next wordBreak =>
  have behind := afterSuffix_suffix left
  rw [Option.some.inj ends] at behind wordBreak
  obtain ⟨suffix, rfl⟩ := behind
  obtain ⟨number, front⟩ := leaves_afterFloatDigits? source _ digits
  refine ⟨number, suffix, ?_, digits, wordBreak⟩
  rw [whole, id_eq, ← List.append_assoc] at front
  exact (List.append_cancel_right front).symm

namespace Literal

theorem eval_float_unread (env : Environment) {text : String}
    (unread : decimal? text.toList = none) :
    eval env (.float text) = .error (.malformedLiteral .float text) := by
  simp [eval, floatValue?, unread]

/-- A float token is plain or it has no value; with an underscore or a suffix it is not plain. -/
theorem eval_float_cases (env : Environment) {source rest : List Char} {text : String}
    (read : literal? source = some (.float text, rest)) :
    ∃ number suffix, text.toList = number ++ suffix ∧
      afterFloatDigits? source = some (suffix ++ rest) ∧
      ((∃ d : FloatText, d.text = text.toList) ∧ '_' ∉ text.toList ∧ suffix = [] ∨
        eval env (.float text) = .error (.malformedLiteral .float text)) := by
  obtain ⟨number, suffix, parts, scan, wordBreak⟩ := literal?_float_parts read
  refine ⟨number, suffix, parts, scan, ?_⟩
  cases value : decimal? text.toList with
  | none => exact .inr (eval_float_unread env value)
  | some found =>
    left
    obtain ⟨d, same⟩ := decimal?_parts value
    have whole := (literal?_float read).2
    rw [whole, same] at scan
    have nonempty := d.nonempty_of_scan wordBreak scan
    obtain ⟨bare, f, plain⟩ := FloatText.of_scan wordBreak d nonempty scan
    exact ⟨⟨f, plain.trans same.symm⟩, same ▸ d.noLine, bare⟩

end Literal

namespace FloatText

/-- In range, a plain float has the nearest number as its value; out of range it has none. -/
theorem eval_text (d : FloatText) (env : Environment) :
    (d.value < Single.limit → ∃ x : Single,
      (∀ y : Single, y.IsNearest d.value ∧ y.isNegative = false ↔ y = x) ∧
        Literal.eval env (.float (.ofList d.text)) = .ok (.float x)) ∧
    (Single.limit ≤ d.value → Literal.eval env (.float (.ofList d.text)) =
      .error (.malformedLiteral .float (.ofList d.text))) := by
  have read : Literal.floatValue? (.ofList d.text) =
      if (Decimal.toSingle (numeral d.digits) d.place).isFinite
      then some (Decimal.toSingle (numeral d.digits) d.place) else none := by
    simp [Literal.floatValue?, Literal.decimal?_text d.toDecimalParts d.nonempty]
  have finite := Decimal.toSingle_isFinite_iff (numeral d.digits) d.place
  rw [← d.value_eq] at finite
  constructor
  · intro inRange
    refine ⟨Decimal.toSingle (numeral d.digits) d.place, fun y => ?_, ?_⟩
    · rw [value_eq] at inRange ⊢
      exact Decimal.toSingle_eq_iff _ _ inRange y
    · rw [Literal.eval, read, if_pos (finite.mpr inRange)]
  · intro beyond
    rw [Literal.eval, read, if_neg (finite.not.mpr beyond.not_gt)]

theorem lex_text (d : FloatText) :
    ∃ p, lex d.text = .ok [.literal (.float (.ofList d.text)) p] := by
  have read : literal? (d.text ++ []) = some (.float (.ofList d.text), []) :=
    d.literal?_text rfl fun _ => rfl
  obtain ⟨c, more, same⟩ := List.exists_cons_of_ne_nil d.nonempty
  have digit := d.wholeDigits c (by simp [same])
  have opens := opensNumber digit
  have noSlash : c ≠ '/' := by rintro rfl; exact opens.noMark (by decide)
  have shape : d.text = c :: (more ++ d.pointText ++ d.powerText) := by
    simp [DecimalParts.text, same]
  have unmarked : d.text.head? ≠ some '\ufeff' := by
    rw [shape, List.head?_cons, Ne, Option.some.injEq]
    rintro rfl
    exact absurd digit (by decide)
  have leads : Leads d.text (.literal (.float (.ofList d.text))) [] := by
    refine ⟨shape ▸ .of_cons _ opens.noGap opens.noBracket noSlash, fun p => ?_, by simp [shape]⟩
    rw [List.append_nil] at read
    rw [leaf?, read]
  obtain ⟨_, lexed, p, _, rfl, rfl⟩ := lex_of_yields (Yields.nil.leaf leads) unmarked
  exact ⟨p, lexed⟩

end FloatText

theorem Expr.evaluates_float {max : Nat} {env : Environment} (room : env.depth < max)
    {source text : String} {p : Position}
    (lexed : lex source.toList = .ok [.literal (.float text) p]) :
    Evaluates max env source (Literal.eval env (.float text)) := by
  have noBool (b : Bool) : Literal.float text ≠ .bool b := nofun
  refine ⟨_, Expr.parse_of_lex lexed (writtenAs_literal (.float text) noBool p), ?_⟩
  rw [Expr.eval_leaf _ _ _ rfl, if_pos room, Expr.value]

/-- Floats are rounded correctly and are never infinite. A plain float has the number without a sign
that is nearest to what is written, or no value from the limit on; a float token with an underscore
or a suffix has none, as has every other one that is not plain. Of every source, each float that
begins with a point is read with a zero in front; and a source that has it so is read alike,
wherever both are lexemes. -/
theorem Expr.float_text_rounds {max : Nat} {env : Environment} (room : env.depth < max) :
    (∀ d : FloatText,
      let text := String.ofList d.text
      (∃ p, lex d.text = .ok [.literal (.float text) p]) ∧
      Evaluates max env text (Literal.eval env (.float text)) ∧
      (d.value < 2 ^ 128 - 2 ^ 103 → ∃ x : Single,
        (∀ y : Single, y.IsNearest d.value ∧ y.isNegative = false ↔ y = x) ∧
          Literal.eval env (.float text) = .ok (.float x)) ∧
      (2 ^ 128 - 2 ^ 103 ≤ d.value →
        Literal.eval env (.float text) = .error (.malformedLiteral .float text))) ∧
    (∀ (source text : String) (p : Position),
      lex source.toList = .ok [.literal (.float text) p] →
        Evaluates max env source (Literal.eval env (.float text))) ∧
    (∀ source text rest, literal? source = some (.float text, rest) →
      ∃ number suffix, text.toList = number ++ suffix ∧
        afterFloatDigits? source = some (suffix ++ rest) ∧
        ('_' ∈ text.toList ∨ suffix ≠ [] →
          Literal.eval env (.float text) = .error (.malformedLiteral .float text)) ∧
        ((∃ d : FloatText, d.text = text.toList) ∨
          Literal.eval env (.float text) = .error (.malformedLiteral .float text))) ∧
    (∀ source w front back, pieces source = front ++ ⟨.pointFloat, '.' :: w⟩ :: back →
      normal source =
        front.flatMap Piece.normal ++ ('0' :: '.' :: w ++ back.flatMap Piece.normal)) ∧
    ∀ w before after, '.' :: w ∈ PieceKind.pointFloat.language → EndsNumber after →
      CutBetween before ('.' :: w ++ after) → CutBetween before ('0' :: '.' :: w ++ after) →
        (Declaration.parse (.ofList (before ++ ('.' :: w ++ after)))).mapError ParseError.told =
          (Declaration.parse (.ofList (before ++ ('0' :: '.' :: w ++ after)))).mapError
            ParseError.told := by
  refine ⟨fun d => ?_, fun source text p lexed => Expr.evaluates_float room lexed,
    fun source text rest read => ?_, fun source w front back cut => (cut_at_piece cut).2.1,
    fun w before after member ends cut cutZero =>
      Declaration.parse_pointFloat member ends cut cutZero⟩
  · obtain ⟨p, lexed⟩ := d.lex_text
    obtain ⟨inRange, beyond⟩ := d.eval_text env
    have alone :
        lex (String.ofList d.text).toList = .ok [.literal (.float (.ofList d.text)) p] := by
      rwa [String.toList_ofList]
    exact ⟨⟨p, lexed⟩, Expr.evaluates_float room alone, inRange, beyond⟩
  · obtain ⟨number, suffix, parts, scan, plain | unread⟩ := Literal.eval_float_cases env read
    · obtain ⟨plain, noLine, bare⟩ := plain
      refine ⟨number, suffix, parts, scan, ?_, .inl plain⟩
      rintro (line | some)
      · exact absurd line noLine
      · exact absurd bare some
    · exact ⟨number, suffix, parts, scan, fun _ => unread, .inr unread⟩

/-- A tie between two numbers, the first value out of range, an underscore, a suffix, and a point in
front. -/
theorem Expr.float_text_rounds_at_edges :
    let tie : FloatText :=
      { whole := "16777217".toList, fraction := some [], power := none
        wholeDigits := List.all_eq_true.mp (by decide), fractionDigits := by simp
        nonempty := by decide, marked := by simp, apart := by simp }
    let limit : FloatText :=
      { whole := "340282356779733661637539395458142568448".toList, fraction := some ['0']
        power := none, wholeDigits := List.all_eq_true.mp (by decide)
        fractionDigits := by simp [isDigit]
        nonempty := by decide, marked := by simp, apart := by simp }
    (∃ x : Single, (∀ y : Single, y.IsNearest tie.value ∧ y.isNegative = false ↔ y = x) ∧
      Literal.eval {} (.float "16777217.") = .ok (.float x)) ∧
    Literal.eval {} (.float "16777217.") = .ok (.float ⟨0x4b800000⟩) ∧
    Evaluates 1 {} (.ofList limit.text)
      (.error (.malformedLiteral .float (.ofList limit.text))) ∧
    Literal.eval {} (.float "1_0.5") = .error (.malformedLiteral .float "1_0.5") ∧
    Literal.eval {} (.float "2.5e") = .error (.malformedLiteral .float "2.5e") ∧
    (Declaration.parse "var x = -.5e+1;").mapError ParseError.told =
      (Declaration.parse "var x = -0.5e+1;").mapError ParseError.told := by
  intro tie limit
  obtain ⟨plain, -, tokens, -, points⟩ := @Expr.float_text_rounds 1 {} (by decide)
  have tieText : String.ofList tie.text = "16777217." := by decide +kernel
  have tieValue : tie.value = 16777217 := by
    have digits : numeral tie.digits = 16777217 := by decide +kernel
    have place : tie.place = 0 := rfl
    rw [FloatText.value_eq, digits, place]
    norm_num
  have limitValue : limit.value = 2 ^ 128 - 2 ^ 103 := by
    have digits : numeral limit.digits = 3402823567797336616375393954581425684480 := by
      decide +kernel
    have place : limit.place = -1 := rfl
    rw [FloatText.value_eq, digits, place]
    norm_num
  obtain ⟨-, -, rounds, -⟩ := plain tie
  obtain ⟨-, evaluates, -, beyond⟩ := plain limit
  have even : Literal.floatValue? "16777217." = some ⟨0x4b800000⟩ := by decide +kernel
  refine ⟨?_, by rw [Literal.eval, even], ?_, ?_, ?_, ?_⟩
  · rw [tieText] at rounds
    exact rounds (by rw [tieValue]; norm_num)
  · rw [← beyond limitValue.ge]
    exact evaluates
  · obtain ⟨_, _, -, -, odd, -⟩ := tokens "1_0.5".toList "1_0.5" [] rfl
    exact odd (.inl (by decide))
  · obtain ⟨_, suffix, -, scan, odd, -⟩ := tokens "2.5e".toList "2.5e" [] rfl
    have found : afterFloatDigits? "2.5e".toList = some ['e'] := rfl
    rw [found, List.append_nil, Option.some.injEq] at scan
    exact odd (.inr (by simp [← scan]))
  · have member : '.' :: "5e+1".toList ∈ PieceKind.pointFloat.language :=
      ((heads_firstPiece '.' "5e+1".toList).recognised (by decide)).2 _ |>.mpr rfl
    exact points "5e+1".toList "var x = -".toList ";".toList member
      (by rintro _ ⟨⟩; rfl) (by decide +kernel) (by decide +kernel)

end GoDecl
