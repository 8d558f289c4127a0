import GoDecl.Proofs.Numerals
import GoDecl.Proofs.Pieces
import Mathlib.Data.List.TakeWhile
import Mathlib.Tactic.FieldSimp
import Mathlib.Tactic.Ring

/-! The parts of a decimal. A text with a value as a decimal is made of whole digits, digits behind
a point, and an exponent, and from the parts the value is what is written. -/
namespace GoDecl

open Text Token Source

/-- The exponent of a float: its mark, its sign if there is one, and its digits. -/
structure Power where
  mark : Char
  sign : Option Char
  digits : List Char
  isMark : mark = 'e' ∨ mark = 'E'
  isSign : ∀ c ∈ sign, c = '+' ∨ c = '-'
  all : ∀ c ∈ digits, isDigit c = true
  nonempty : digits ≠ []

namespace Power

def text (p : Power) : List Char := p.mark :: (p.sign.toList ++ p.digits)

def exponent (p : Power) : Int := if p.sign = some '-' then -numeral p.digits else numeral p.digits

end Power

/-- A decimal in parts: digits, digits behind a point, and an exponent. Any part may be missing, the
point with its digits. -/
structure DecimalParts where
  whole : List Char
  fraction : Option (List Char)
  power : Option Power
  wholeDigits : ∀ c ∈ whole, isDigit c = true
  fractionDigits : ∀ f ∈ fraction, ∀ c ∈ f, isDigit c = true

namespace DecimalParts

variable (d : DecimalParts)

/-- What is behind the whole digits. -/
def powerText : List Char := d.power.elim [] Power.text

def pointText : List Char := d.fraction.elim [] ('.' :: ·)

def text : List Char := d.whole ++ d.pointText ++ d.powerText

/-- The digits without the point. -/
def digits : List Char := d.whole ++ d.fraction.getD []

def place : Int := d.power.elim 0 Power.exponent - (d.fraction.getD []).length

end DecimalParts

/-- The parts of a float: there are whole digits, and a point or an exponent. No exponent follows a
bare point. -/
structure FloatText extends DecimalParts where
  nonempty : whole ≠ []
  marked : fraction ≠ none ∨ power ≠ none
  apart : fraction = some [] → power = none

namespace FloatText

/-- The exact number that is written. -/
def value (d : FloatText) : Rat :=
  (numeral d.whole + d.fraction.elim 0 fun f => (numeral f : Rat) / 10 ^ f.length) *
    10 ^ d.power.elim 0 Power.exponent

theorem value_eq (d : FloatText) : d.value = numeral d.digits * 10 ^ d.place := by
  rw [value, DecimalParts.digits, DecimalParts.place, numeral_append, zpow_sub₀ (by norm_num),
    zpow_natCast]
  cases d.fraction with
  | none => simp [numeral]
  | some f =>
    simp only [Option.elim_some, Option.getD_some]
    push_cast
    field_simp

end FloatText

theorem DecimalParts.noLine (d : DecimalParts) : '_' ∉ d.text := by
  have noDigit {part : List Char} (all : ∀ c ∈ part, isDigit c = true) : '_' ∉ part :=
    fun member => absurd (all '_' member) (by decide)
  have noPoint : '_' ∉ d.pointText := by
    rw [pointText]
    cases point : d.fraction with
    | none => simp
    | some f => simp [noDigit (d.fractionDigits f point)]
  have noPower : '_' ∉ d.powerText := by
    rw [powerText]
    cases d.power with
    | none => simp
    | some p =>
      have noMark : p.mark ≠ '_' := by rcases p.isMark with same | same <;> rw [same] <;> decide
      have noSign : p.sign ≠ some '_' := fun same => absurd (p.isSign '_' same) (by decide)
      simp [Power.text, noMark.symm, noSign, noDigit p.all]
  simp [text, noDigit d.wholeDigits, noPoint, noPower]

theorem run_digits {digits rest : List Char} (all : ∀ c ∈ digits, isDigit c = true)
    (ends : EndsDigits rest) :
    run isDigit (digits ++ rest) = (digits, rest) ∧
      run isDigitOrUnderscore (digits ++ rest) = (digits, rest) := by
  constructor
  · refine run_of_stop isDigit digits rest all fun c first => ?_
    have other := ends c first
    simp only [isDigitOrUnderscore, Bool.or_eq_false_iff] at other
    exact other.1
  · refine run_of_stop isDigitOrUnderscore digits rest (fun c member => ?_) ends
    simp [isDigitOrUnderscore, all c member]

namespace Power

variable (p : Power)

theorem ends_text (rest : List Char) : EndsDigits (p.text ++ rest) := by
  have mark : isDigitOrUnderscore p.mark = false := by
    rcases p.isMark with same | same <;> rw [same] <;> decide
  exact .of_cons _ mark

theorem text_noPoint (rest more : List Char) : p.text ++ rest ≠ '.' :: more := by
  rcases p.isMark with same | same <;> simp [text, same]

end Power

theorem DecimalParts.ends_powerText (d : DecimalParts) : EndsDigits d.powerText := by
  rw [powerText]
  cases d.power with
  | none => exact fun c first => nomatch first
  | some p => simpa using p.ends_text []

theorem DecimalParts.powerText_noPoint (d : DecimalParts) (more : List Char) :
    d.powerText ≠ '.' :: more := by
  rw [powerText]
  cases d.power with
  | none => exact nofun
  | some p => simpa using p.text_noPoint [] more

namespace Literal

theorem exponent?_power (p : Power) : exponent? (p.sign.toList ++ p.digits) = some p.exponent := by
  have some : p.digits.isEmpty = false := by simpa using p.nonempty
  have all : p.digits.all isDigit = true := List.all_eq_true.mpr p.all
  cases sign : p.sign with
  | none =>
    obtain ⟨c, more, same⟩ := List.exists_cons_of_ne_nil p.nonempty
    have digit := p.all c (by simp [same])
    have noPlus : c ≠ '+' := by rintro rfl; exact absurd digit (by decide)
    have noMinus : c ≠ '-' := by rintro rfl; exact absurd digit (by decide)
    have signless : exponent? p.digits =
        if p.digits.isEmpty || !p.digits.all isDigit then none
        else Option.some (1 * (Decimal.ofDigits p.digits : Int)) := by
      rw [same]
      simp [exponent?, noPlus, noMinus]
    simpa [some, all, Power.exponent, sign, Decimal.ofDigits_eq] using signless
  | some c =>
    rcases p.isSign c sign with rfl | rfl <;>
      simp [exponent?, some, all, Power.exponent, sign, Decimal.ofDigits_eq]

theorem exponent?_parts {mark : Char} (isMark : mark = 'e' ∨ mark = 'E') {text : List Char}
    {e : Int} (read : exponent? text = some e) : ∃ p : Power, mark :: text = p.text := by
  unfold exponent? at read
  split at read
  next sign digits parts =>
  split at read
  · cases read
  next proper =>
  obtain ⟨nonempty, all⟩ : digits ≠ [] ∧ ∀ c ∈ digits, isDigit c = true := by simpa using proper
  split at parts
  · next rest =>
    obtain ⟨-, rfl⟩ := Prod.mk.inj parts
    exact ⟨⟨mark, some '+', rest, isMark, by simp, all, nonempty⟩, rfl⟩
  · next rest =>
    obtain ⟨-, rfl⟩ := Prod.mk.inj parts
    exact ⟨⟨mark, some '-', rest, isMark, by simp, all, nonempty⟩, rfl⟩
  · obtain ⟨-, rfl⟩ := Prod.mk.inj parts
    exact ⟨⟨mark, none, text, isMark, by simp, all, nonempty⟩, rfl⟩

/-- What is behind the digits: nothing, or an exponent. -/
def withPower? (n : Nat) (place : Int) : List Char → Option (Nat × Int)
  | [] => some (n, place)
  | 'e' :: power | 'E' :: power => do some (n, place + (← exponent? power))
  | _ => none

theorem withPower?_power (n : Nat) (place : Int) (power : Option Power) :
    withPower? n place (power.elim [] Power.text) =
      some (n, place + power.elim 0 Power.exponent) := by
  cases power with
  | none => simp [withPower?]
  | some p =>
    have value := exponent?_power p
    rcases p.isMark with same | same <;> simp [withPower?, Power.text, same, value]

theorem withPower?_parts {n : Nat} {place : Int} {rest : List Char} {found : Nat × Int}
    (read : withPower? n place rest = some found) :
    ∃ power : Option Power, rest = power.elim [] Power.text := by
  unfold withPower? at read
  split at read
  · exact ⟨none, rfl⟩
  · obtain ⟨e, taken, -⟩ := Option.bind_eq_some_iff.mp read
    obtain ⟨p, same⟩ := exponent?_parts (.inl rfl) taken
    exact ⟨some p, same⟩
  · obtain ⟨e, taken, -⟩ := Option.bind_eq_some_iff.mp read
    obtain ⟨p, same⟩ := exponent?_parts (.inr rfl) taken
    exact ⟨some p, same⟩
  · cases read

/-- The decimal of digits, of those behind the point, and of what comes then. -/
def fromDigits? (whole fraction rest : List Char) : Option (Nat × Int) :=
  if whole.isEmpty && fraction.isEmpty then none
  else withPower? (Decimal.ofDigits (whole ++ fraction)) (-fraction.length) rest

theorem decimal?_of_point {text more : List Char}
    (point : text.dropWhile isDigit = '.' :: more) :
    decimal? text =
      fromDigits? (text.takeWhile isDigit) (more.takeWhile isDigit) (more.dropWhile isDigit) := by
  simp only [decimal?, point]
  rfl

theorem decimal?_of_noPoint {text : List Char}
    (noPoint : ∀ more, text.dropWhile isDigit ≠ '.' :: more) :
    decimal? text = fromDigits? (text.takeWhile isDigit) [] (text.dropWhile isDigit) := by
  dsimp only [decimal?]
  split
  next more point => exact absurd point (noPoint more)
  rfl

theorem fromDigits?_parts {whole fraction rest : List Char} {found : Nat × Int}
    (read : fromDigits? whole fraction rest = some found) :
    ∃ power : Option Power, rest = power.elim [] Power.text := by
  unfold fromDigits? at read
  split at read
  · cases read
  · exact withPower?_parts read

theorem decimal?_text (d : DecimalParts) (nonempty : d.whole ≠ []) :
    decimal? d.text = some (numeral d.digits, d.place) := by
  have some (fraction : List Char) : (d.whole.isEmpty && fraction.isEmpty) = false := by
    simp [nonempty]
  have power := d.ends_powerText
  rw [DecimalParts.text, List.append_assoc, DecimalParts.digits, DecimalParts.place,
    DecimalParts.pointText]
  cases fraction : d.fraction with
  | none =>
    obtain ⟨taken, left⟩ := Prod.mk.inj (run_digits d.wholeDigits power).1
    have noPoint (more : List Char) : (d.whole ++ d.powerText).dropWhile isDigit ≠ '.' :: more := by
      rw [left]
      exact d.powerText_noPoint more
    rw [Option.elim_none, List.nil_append, decimal?_of_noPoint noPoint, taken, left, fromDigits?,
      some, if_neg Bool.false_ne_true, DecimalParts.powerText, withPower?_power]
    simp [Decimal.ofDigits_eq]
  | some f =>
    obtain ⟨taken, left⟩ := Prod.mk.inj (run_digits (d.fractionDigits f fraction) power).1
    have point : EndsDigits ('.' :: (f ++ d.powerText)) := .of_cons _ (by decide)
    obtain ⟨takenWhole, leftWhole⟩ := Prod.mk.inj (run_digits d.wholeDigits point).1
    rw [Option.elim_some, List.cons_append, decimal?_of_point leftWhole, takenWhole, taken, left,
      fromDigits?, some, if_neg Bool.false_ne_true, DecimalParts.powerText, withPower?_power]
    simp [Decimal.ofDigits_eq]
    ring

/-- A text with a value as a decimal is made of the parts of one. -/
theorem decimal?_parts {text : List Char} {found : Nat × Int} (read : decimal? text = some found) :
    ∃ d : DecimalParts, text = d.text := by
  have front : text.takeWhile isDigit ++ text.dropWhile isDigit = text :=
    List.takeWhile_append_dropWhile
  have digits (part : List Char) : ∀ c ∈ part.takeWhile isDigit, isDigit c = true :=
    fun c member => List.mem_takeWhile_imp member
  by_cases point : ∃ more, text.dropWhile isDigit = '.' :: more
  · obtain ⟨more, point⟩ := point
    rw [decimal?_of_point point] at read
    obtain ⟨power, rest⟩ := fromDigits?_parts read
    refine ⟨⟨text.takeWhile isDigit, some (more.takeWhile isDigit), power, digits text, ?_⟩, ?_⟩
    · rintro _ ⟨⟩
      exact digits more
    · rw [DecimalParts.text, DecimalParts.powerText, ← rest, DecimalParts.pointText,
        List.append_assoc, Option.elim_some, List.cons_append, List.takeWhile_append_dropWhile,
        ← point, front]
  · rw [decimal?_of_noPoint (not_exists.mp point)] at read
    obtain ⟨power, rest⟩ := fromDigits?_parts read
    refine ⟨⟨text.takeWhile isDigit, none, power, digits text, by simp⟩, ?_⟩
    rw [DecimalParts.text, DecimalParts.powerText, ← rest, DecimalParts.pointText,
      Option.elim_none, List.append_nil, front]

end Literal

end GoDecl
