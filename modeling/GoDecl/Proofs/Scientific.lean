import GoDecl.Proofs.Magnitudes
import GoDecl.Proofs.Numerals
import GoDecl.Proofs.Rounding

/-! The scientific text of a number is the number rounded to seven significant digits. Everything up
to the digits is exact: the exponent is read off a whole number of units, and the quotient that is
rounded is the number on the grid of its seventh digit. -/
namespace GoDecl

open Text

/-- A number in scientific notation: a digit, six digits behind the point, and a power of ten with a
sign and at least two digits. -/
structure Scientific where
  lead : Char
  fraction : List Char
  below : Bool
  power : List Char
  lead_digit : isDigit lead = true
  fraction_length : fraction.length = 6
  fraction_digits : ∀ c ∈ fraction, isDigit c = true
  power_length : 2 ≤ power.length
  power_digits : ∀ c ∈ power, isDigit c = true

namespace Scientific

def text (s : Scientific) : List Char :=
  s.lead :: '.' :: s.fraction ++ 'e' :: (if s.below then '-' else '+') :: s.power

def exponent (s : Scientific) : Int := if s.below then -numeral s.power else numeral s.power

/-- The number that is written. -/
def value (s : Scientific) : Rat := numeral (s.lead :: s.fraction) / 10 ^ 6 * 10 ^ s.exponent

end Scientific

theorem Single.one_eq : one = 2 ^ 149 := rfl

namespace Decimal

/-- Digits are counted in a whole number: the number shifted by 45 places, without its fraction. A
fraction that is dropped does not take a number below a power of ten. -/
theorem exponent_eq {units : Nat} (positive : 0 < units) :
    exponent units = Int.log 10 (units / 2 ^ 149 : Rat) := by
  have shift : Nat.pow 10 45 = 10 ^ 45 := rfl
  have some : 0 < units * 10 ^ 45 / 2 ^ 149 := Nat.div_pos (by omega) (by decide)
  have count : 0 < (digits (units * 10 ^ 45 / 2 ^ 149)).length :=
    List.length_pos_iff.mpr (digits_ne_nil _)
  obtain ⟨low, high⟩ := digits_bounds some
  rw [exponent, shift, Single.one_eq]
  generalize (digits (units * 10 ^ 45 / 2 ^ 149)).length = length at *
  obtain ⟨places, rfl⟩ : ∃ places, length = places + 1 := ⟨length - 1, by omega⟩
  rw [Nat.add_sub_cancel, Nat.le_div_iff_mul_le (by decide)] at low
  rw [Nat.div_lt_iff_lt_mul (by decide)] at high
  have grid (m : Nat) : (10 : Rat) ^ ((m : Int) - 45) = 10 ^ m / 10 ^ 45 := by
    rw [zpow_sub₀ (by norm_num), zpow_natCast, zpow_ofNat]
  have place : ((places + 1 : Nat) : Int) - 1 - 45 = (places : Nat) - 45 := by omega
  symm
  rw [place]
  apply log_eq_of_bounds
  · rw [grid, div_le_div_iff₀ (by positivity) (by positivity)]
    exact_mod_cast low
  · rw [sub_add_eq_add_sub, ← Nat.cast_succ, grid, div_lt_div_iff₀ (by positivity) (by positivity)]
    exact_mod_cast high

/-- The fraction is the number on the grid. -/
theorem scaled_eq {units num den : Nat} {place : Int} (fraction : scaled units place = (num, den)) :
    0 < den ∧ (num / den : Rat) = units / 2 ^ 149 / 10 ^ place := by
  have one : (Single.one : Rat) = 2 ^ 149 := Nat.cast_pow 2 149
  have positive : 0 < Single.one := Nat.two_pow_pos 149
  rw [← one]
  rw [scaled, Nat.pow_eq] at fraction
  split at fraction <;> obtain ⟨rfl, rfl⟩ := Prod.mk.inj fraction
  · obtain ⟨n, rfl⟩ : ∃ n : Nat, place = -n := ⟨place.natAbs, by omega⟩
    rw [Int.natAbs_neg, Int.natAbs_natCast, zpow_neg, zpow_natCast, div_inv_eq_mul, Nat.cast_mul,
      Nat.cast_pow, Nat.cast_ofNat, mul_div_right_comm]
    exact ⟨positive, rfl⟩
  · obtain ⟨n, rfl⟩ : ∃ n : Nat, place = n := ⟨place.natAbs, by omega⟩
    rw [Int.natAbs_natCast, zpow_natCast, div_div, Nat.cast_mul, Nat.cast_pow, Nat.cast_ofNat]
    exact ⟨Nat.mul_pos positive (by positivity), rfl⟩

theorem sevenDigits_eq {units num den : Nat} {e : Int} (positive : 0 < units)
    (first : exponent units = e) (fraction : scaled units (e - 6) = (num, den)) :
    sevenDigits units =
      if Single.roundDiv num den = 10 ^ 7 then (10 ^ 6, e + 1)
      else (Single.roundDiv num den, e) := by
  rw [sevenDigits, if_neg positive.ne', first]
  dsimp only
  -- The pair is opened as a variable; opened by its definition, its powers of ten are computed.
  rw [fraction]
  rfl

/-- The digits are seven, and they are those of the rounded number. If rounding has carried into an
eighth digit, the first seven of these are taken instead. -/
theorem sevenDigits_spec {units n : Nat} {e : Int} (positive : 0 < units)
    (found : sevenDigits units = (n, e)) :
    10 ^ 6 ≤ n ∧ n < 10 ^ 7 ∧ RoundedTo 7 (units / 2 ^ 149) (n / 10 ^ 6 * 10 ^ e) := by
  have number : (0 : Rat) < units / 2 ^ 149 := by positivity
  obtain ⟨first, equal⟩ : ∃ first, exponent units = first := ⟨_, rfl⟩
  have place : lastPlace 7 (units / 2 ^ 149) = first - 6 := by
    rw [lastPlace, ← exponent_eq positive, equal]
    norm_num
  rcases fraction : scaled units (first - 6) with ⟨num, den⟩
  obtain ⟨grid, exact⟩ := scaled_eq fraction
  have nearest := Single.roundDiv_nearest num grid
  rw [sevenDigits_eq positive equal fraction] at found
  generalize Single.roundDiv num den = m at *
  rw [exact, ← place] at nearest
  obtain ⟨least, most⟩ := digits_of_nearest number nearest
  have rounded : RoundedTo 7 (units / 2 ^ 149) (m * 10 ^ (first - 6)) :=
    ⟨m, nearest, by rw [place, Int.cast_natCast]⟩
  have power : (10 : Rat) ^ (first - 6) = 10 ^ first / 10 ^ 6 := by
    rw [zpow_sub₀ (by norm_num), zpow_ofNat]
  rw [power] at rounded
  split at found <;> obtain ⟨rfl, rfl⟩ := Prod.mk.inj found
  · next carry =>
    have value : (m * (10 ^ first / 10 ^ 6) : Rat) =
        (10 ^ 6 : Nat) / 10 ^ 6 * 10 ^ (first + 1) := by
      rw [carry, zpow_add_one₀ (by norm_num)]
      push_cast
      ring
    exact ⟨by decide, by decide, value ▸ rounded⟩
  · have value : (m * (10 ^ first / 10 ^ 6) : Rat) = m / 10 ^ 6 * 10 ^ first := by ring
    exact ⟨by exact_mod_cast least, by omega, value ▸ rounded⟩

end Decimal

namespace Scientific

/-- Seven digits, the first of them in front of the point, and a power of ten. -/
def ofDigits (n : Nat) (e : Int) (fits : n < 10 ^ 7) : Scientific where
  lead := (n / 10 ^ 6).digitChar
  fraction := Decimal.padded 6 (n % 10 ^ 6)
  below := e < 0
  power := Decimal.padded 2 e.natAbs
  lead_digit := by
    have single := Decimal.digits_of_lt_ten (n := n / 10 ^ 6) (by omega)
    exact Decimal.isDigit_of_mem_digits (single ▸ List.mem_singleton_self _)
  fraction_length := Decimal.length_padded (by decide) (Nat.mod_lt n (by decide))
  fraction_digits := fun _ => Decimal.isDigit_of_mem_padded
  power_length := Decimal.le_length_padded
  power_digits := fun _ => Decimal.isDigit_of_mem_padded

variable {n : Nat} {e : Int} (fits : n < 10 ^ 7)

theorem lead_ofDigits : numeral [(ofDigits n e fits).lead] = n / 10 ^ 6 := by
  rw [ofDigits, ← Decimal.digits_of_lt_ten (by omega), Decimal.numeral_digits]

theorem exponent_ofDigits : (ofDigits n e fits).exponent = e := by
  simp only [exponent, ofDigits, Decimal.numeral_padded, decide_eq_true_eq]
  split <;> omega

theorem value_ofDigits : (ofDigits n e fits).value = n / 10 ^ 6 * 10 ^ e := by
  have digits : numeral ((ofDigits n e fits).lead :: (ofDigits n e fits).fraction) = n := by
    rw [← List.singleton_append, numeral_append, lead_ofDigits, fraction_length, ofDigits,
      Decimal.numeral_padded]
    exact Nat.div_add_mod' n (10 ^ 6)
  rw [value, digits, exponent_ofDigits]

end Scientific

namespace Decimal

theorem scientific_eq {x : Single} (finite : x.isFinite = true) {n : Nat} {e : Int}
    (found : sevenDigits x.units = (n, e)) (fits : n < 10 ^ 7) :
    (scientific x).toList =
      (if x.bits.toNat / 2 ^ 31 = 1 then ['-'] else []) ++ (Scientific.ofDigits n e fits).text := by
  have range : x.magnitude < Single.infiniteBits := of_decide_eq_true finite
  have number : x.isNaN = false := decide_eq_false (by omega)
  have bounded : x.isInfinite = false := decide_eq_false (by omega)
  have single : digits (n / 10 ^ 6) = [(n / 10 ^ 6).digitChar] := digits_of_lt_ten (by omega)
  rw [scientific, number, bounded, found, Single.isNegative_eq]
  simp only [Bool.false_eq_true, if_false, String.toList_ofList, Nat.pow_eq, single,
    List.append_assoc, decide_eq_true_eq, Scientific.text, Scientific.ofDigits]
  rfl

/-- The scientific text of a number is a sign, if the bit of it is set, and the number rounded to
seven significant digits with the first of them not zero; for zero all digits are. -/
theorem scientific_correctly_rounded {x : Single} (finite : x.isFinite = true) :
    ∃ s : Scientific,
      (scientific x).toList = (if x.bits.toNat / 2 ^ 31 = 1 then ['-'] else []) ++ s.text ∧
      (x.toRat = 0 → s.text = "0.000000e+00".toList) ∧
      (x.toRat ≠ 0 → s.lead ≠ '0' ∧ ∀ y, RoundedTo 7 |x.toRat| y ↔ y = s.value) := by
  have magnitude := Single.abs_toRat x
  rcases Nat.eq_zero_or_pos x.units with none | some
  · have zero : x.toRat = 0 := by
      rw [none, Nat.cast_zero, zero_div] at magnitude
      exact abs_eq_zero.mp magnitude
    have found : sevenDigits x.units = (0, 0) := by
      rw [none]
      rfl
    exact ⟨_, scientific_eq finite found (by decide), fun _ => rfl,
      fun nonzero => absurd zero nonzero⟩
  · rcases found : sevenDigits x.units with ⟨n, e⟩
    obtain ⟨least, fits, rounded⟩ := sevenDigits_spec some found
    have nonzero : x.toRat ≠ 0 := by
      rw [← abs_pos, magnitude]
      positivity
    refine ⟨_, scientific_eq finite found fits, fun zero => absurd zero nonzero, fun _ => ⟨?_, ?_⟩⟩
    · intro zero
      have lead := Scientific.lead_ofDigits (e := e) fits
      rw [zero] at lead
      have : n / 10 ^ 6 = 0 := lead.symm
      omega
    · intro y
      rw [magnitude, Scientific.value_ofDigits]
      exact ⟨fun rounded' => rounded'.unique rounded, fun same => same ▸ rounded⟩

theorem scientific_correctly_rounded_of_carry :
    (∃ s : Scientific, "-1.000000e+11".toList = ['-'] ++ s.text ∧ s.lead ≠ '0' ∧
      ∀ y, RoundedTo 7 |-99999997952| y ↔ y = s.value) ∧
    ∃ s : Scientific, (scientific ⟨0x80000000⟩).toList = ['-'] ++ s.text ∧
      s.text = "0.000000e+00".toList := by
  constructor
  · have units : Single.signedUnits ⟨0xd1ba43b7⟩ = -99999997952 * 2 ^ 149 := by decide +kernel
    have number : Single.toRat ⟨0xd1ba43b7⟩ = -99999997952 := by
      rw [Single.toRat_eq, units]
      norm_num
    have text : scientific ⟨0xd1ba43b7⟩ = "-1.000000e+11" := by decide +kernel
    obtain ⟨s, written, -, rounded⟩ := scientific_correctly_rounded (x := ⟨0xd1ba43b7⟩) (by decide)
    rw [number] at rounded
    rw [text] at written
    obtain ⟨lead, only⟩ := rounded (by norm_num)
    exact ⟨s, written, lead, only⟩
  · have units : Single.signedUnits ⟨0x80000000⟩ = 0 := by decide
    have number : Single.toRat ⟨0x80000000⟩ = 0 := by
      rw [Single.toRat_eq, units, Int.cast_zero, zero_div]
    obtain ⟨s, written, zero, -⟩ := scientific_correctly_rounded (x := ⟨0x80000000⟩) (by decide)
    exact ⟨s, written, zero number⟩

-- Halfway between what seven digits can tell apart, the last digit becomes even.
example : scientific ⟨0x49800004⟩ = "1.048576e+06" ∧ scientific ⟨0x4980000c⟩ = "1.048578e+06" := by
  decide +kernel

end Decimal

end GoDecl
