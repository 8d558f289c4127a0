import GoDecl.Proofs.Scientific

/-! The number of the format that is nearest to an exact value. Next to a value the numbers lie on a
grid of a power of two, and the bits count the places of the grid one by one, also where the grid
changes: so the nearest place of the grid is the nearest number, and even bits are an even place. -/
namespace GoDecl.Single

/-- Bits on the grid of a power of two: those of the least exponent, or those of one exponent with
the first number of the next. -/
theorem unitsOf_grid {shift n : Nat} (within : n ≤ 2 ^ 24) (normal : shift = 0 ∨ 2 ^ 23 ≤ n) :
    unitsOf (shift * 2 ^ 23 + n) = n * 2 ^ shift := by
  rcases Nat.lt_or_ge n (2 ^ 23) with small | large
  · obtain rfl : shift = 0 := normal.resolve_right (by omega)
    rw [unitsOf_eq 0 small, if_pos rfl, Nat.pow_zero, Nat.mul_one]
  · rcases Nat.lt_or_eq_of_le within with below | full
    · have place : shift * 2 ^ 23 + n = (shift + 1) * 2 ^ 23 + (n - 2 ^ 23) := by omega
      rw [place, unitsOf_eq _ (by omega), if_neg (Nat.succ_ne_zero shift), Nat.add_sub_cancel,
        Nat.add_sub_cancel' large]
    · have place : shift * 2 ^ 23 + n = (shift + 2) * 2 ^ 23 + 0 := by omega
      rw [place, unitsOf_eq _ (by decide), if_neg (Nat.succ_ne_zero _), full]
      simp only [Nat.add_zero, Nat.add_succ_sub_one, pow_succ]
      ring

section Grid

variable {shift n : Nat} (within : n ≤ 2 ^ 24) (normal : shift = 0 ∨ 2 ^ 23 ≤ n)

include within normal

/-- All numbers above a place of the grid are a place away, or more. -/
theorem unitsOf_above {k : Nat} (above : shift * 2 ^ 23 + n < k) :
    unitsOf (shift * 2 ^ 23 + n) + 2 ^ shift ≤ unitsOf k := by
  refine le_trans ?_ (unitsOf_strictMono.monotone above)
  rw [unitsOf_grid within normal, ← Nat.succ_mul]
  rcases Nat.lt_or_eq_of_le within with below | full
  · rw [← Nat.add_succ, unitsOf_grid below (by omega)]
  · -- The next number is the second one of the next grid.
    have place : (shift * 2 ^ 23 + n).succ = (shift + 1) * 2 ^ 23 + (2 ^ 23 + 1) := by omega
    have double : n.succ ≤ (2 ^ 23 + 1) * 2 := by omega
    rw [place, unitsOf_grid (by omega) (by omega)]
    calc n.succ * 2 ^ shift ≤ (2 ^ 23 + 1) * 2 * 2 ^ shift := Nat.mul_le_mul_right _ double
      _ = (2 ^ 23 + 1) * 2 ^ (shift + 1) := by ring

/-- All numbers below a place of the grid are a place away, or more, unless it is the first one. -/
theorem unitsOf_below {k : Nat} (below : k < shift * 2 ^ 23 + n) (inner : shift = 0 ∨ 2 ^ 23 < n) :
    unitsOf k + 2 ^ shift ≤ unitsOf (shift * 2 ^ 23 + n) := by
  obtain ⟨n, rfl⟩ : ∃ m, n = m + 1 := Nat.exists_eq_succ_of_ne_zero (by omega)
  have last : unitsOf k ≤ unitsOf (shift * 2 ^ 23 + n) :=
    unitsOf_strictMono.monotone (by omega)
  rw [unitsOf_grid (by omega) (by omega)] at last
  rw [unitsOf_grid within normal, Nat.succ_mul]
  exact Nat.add_le_add_right last _

end Grid

/-- Magnitude bits that are nearest to a number of units, and even where others are as near. -/
structure NearestBits (u : Rat) (m : Nat) : Prop where
  least : ∀ k, |u - unitsOf m| ≤ |u - unitsOf k|
  even : ∀ k ≠ m, |u - unitsOf k| = |u - unitsOf m| → Even m

/-- Half a place is enough, where no other number is less than a place away. -/
theorem NearestBits.of_gap {u : Rat} {m : Nat} (gap : Nat) (near : |u - unitsOf m| ≤ gap / 2)
    (tie : |u - unitsOf m| = gap / 2 → Even m)
    (above : ∀ k, m < k → unitsOf m + gap ≤ unitsOf k)
    (below : ∀ k, k < m → unitsOf k + gap ≤ unitsOf m ∨ (unitsOf m : Rat) ≤ u) :
    NearestBits u m := by
  obtain ⟨low, high⟩ := abs_le.mp near
  have far (k : Nat) (other : k ≠ m) :
      |u - unitsOf m| < |u - unitsOf k| ∨
        |u - unitsOf m| = gap / 2 ∧ gap / 2 ≤ |u - unitsOf k| := by
    have half : |u - unitsOf m| < gap / 2 ∨ |u - unitsOf m| = gap / 2 := lt_or_eq_of_le near
    rcases lt_or_gt_of_ne other with less | greater
    · rcases below k less with gone | high
      · have gone : (unitsOf k : Rat) + gap ≤ unitsOf m := by exact_mod_cast gone
        have bound : (gap : Rat) / 2 ≤ |u - unitsOf k| := by
          have := le_abs_self (u - unitsOf k)
          linarith
        exact half.imp (·.trans_le bound) (⟨·, bound⟩)
      · have less : (unitsOf k : Rat) < unitsOf m := by exact_mod_cast unitsOf_strictMono less
        left
        rw [abs_of_nonneg (by linarith), abs_of_nonneg (by linarith)]
        linarith
    · have gone : (unitsOf m : Rat) + gap ≤ unitsOf k := by exact_mod_cast above k greater
      have bound : (gap : Rat) / 2 ≤ |u - unitsOf k| := by
        have := neg_abs_le (u - unitsOf k)
        linarith
      exact half.imp (·.trans_le bound) (⟨·, bound⟩)
  constructor
  · intro k
    rcases eq_or_ne k m with rfl | other
    · exact le_rfl
    · rcases far k other with less | ⟨same, bound⟩
      · exact less.le
      · exact same.le.trans bound
  · intro k other same
    rcases far k other with less | ⟨half, -⟩
    · exact absurd same less.ne'
    · exact tie half

namespace NearestBits

variable {u : Rat} {m : Nat}

/-- Two numbers that are both nearest are neighbours, and one of them has odd bits. -/
theorem eq_of_tie (nearest : NearestBits u m) {k : Nat} (tie : |u - unitsOf k| = |u - unitsOf m|)
    (even : Even k) : k = m := by
  have apart (a b : Nat) (less : a < b) (evenA : Even a) (evenB : Even b)
      (nearA : |u - unitsOf a| = |u - unitsOf m|) (nearB : |u - unitsOf b| = |u - unitsOf m|) :
      False := by
    have between : a + 1 < b := by grind
    have low : (unitsOf a : Rat) < unitsOf (a + 1) := by exact_mod_cast unitsOf_lt_succ a
    have high : (unitsOf (a + 1) : Rat) < unitsOf b := by exact_mod_cast unitsOf_strictMono between
    have nearer : |u - unitsOf (a + 1)| < |u - unitsOf m| := by
      have above := le_abs_self (u - unitsOf a)
      have below := neg_abs_le (u - unitsOf b)
      rw [abs_lt]
      constructor <;> linarith
    exact (nearest.least (a + 1)).not_gt nearer
  by_contra other
  have evenM := nearest.even k other tie
  rcases lt_or_gt_of_ne other with less | greater
  · exact apart k m less even evenM tie rfl
  · exact apart m k greater evenM even rfl tie

/-- Below the middle of two neighbours the bits are at most those of the lower one. -/
theorem le_of_lt_middle (nearest : NearestBits u m) {k : Nat}
    (below : u < (unitsOf k + unitsOf (k + 1)) / 2) : m ≤ k := by
  by_contra! above
  have more : (unitsOf (k + 1) : Rat) ≤ unitsOf m := by
    exact_mod_cast unitsOf_strictMono.monotone above
  have least := nearest.least k
  have far := neg_abs_le (u - unitsOf m)
  have step : (unitsOf k : Rat) < unitsOf (k + 1) := by exact_mod_cast unitsOf_lt_succ k
  have near : |u - unitsOf k| < unitsOf (k + 1) - u := by
    rw [abs_lt]
    constructor <;> linarith
  linarith

/-- From the middle of two neighbours on the bits are more than those of the lower one, if these are
odd. -/
theorem lt_of_middle_le (nearest : NearestBits u m) {k : Nat} (odd : ¬ Even k)
    (above : (unitsOf k + unitsOf (k + 1)) / 2 ≤ u) : k < m := by
  by_contra! below
  have less : (unitsOf m : Rat) ≤ unitsOf k := by
    exact_mod_cast unitsOf_strictMono.monotone below
  have step : (unitsOf k : Rat) < unitsOf (k + 1) := by exact_mod_cast unitsOf_lt_succ k
  have far : |u - unitsOf m| = u - unitsOf m := abs_of_nonneg (by linarith)
  have near : |u - unitsOf (k + 1)| ≤ u - unitsOf k := by
    rw [abs_le]
    constructor <;> linarith
  have least := nearest.least (k + 1)
  have same : (unitsOf m : Rat) = unitsOf k := by linarith
  obtain rfl : m = k := unitsOf_strictMono.injective (by exact_mod_cast same)
  exact odd (nearest.even (m + 1) (Nat.succ_ne_self m) (by linarith))

end NearestBits

/-- The nearest place of the grid is the nearest number. The value has to lie on the grid itself:
below it the numbers stand closer. -/
theorem NearestBits.of_grid {v : Rat} {shift n : Nat} (nearest : NearestEven v n)
    (most : v ≤ (2 ^ 24 : Int)) (least : shift = 0 ∨ ((2 ^ 23 : Int) : Rat) ≤ v) :
    NearestBits (v * 2 ^ shift) (shift * 2 ^ 23 + n) := by
  have within : n ≤ 2 ^ 24 := by exact_mod_cast nearest.le_of_ge most
  have normal : shift = 0 ∨ 2 ^ 23 ≤ n :=
    least.imp_right fun low => by exact_mod_cast nearest.le_of_le low
  have scale : (0 : Rat) < 2 ^ shift := by positivity
  have units : (unitsOf (shift * 2 ^ 23 + n) : Rat) = (n : Int) * 2 ^ shift := by
    rw [unitsOf_grid within normal]
    push_cast
    rfl
  have distance : |v * 2 ^ shift - unitsOf (shift * 2 ^ 23 + n)| = |v - (n : Int)| * 2 ^ shift := by
    rw [units, ← sub_mul, abs_mul, abs_of_pos scale]
  refine .of_gap (2 ^ shift) ?_ ?_ (fun k => unitsOf_above within normal) fun k below => ?_
  · rw [distance, Nat.cast_pow, Nat.cast_ofNat, div_eq_inv_mul, ← one_div]
    exact mul_le_mul_of_nonneg_right nearest.abs_le scale.le
  · rw [distance, Nat.cast_pow, Nat.cast_ofNat, div_eq_inv_mul, ← one_div]
    intro half
    have even := nearest.even_of_tie (mul_right_cancel₀ scale.ne' half)
    have even : Even n := by exact_mod_cast even
    exact (Nat.even_mul.mpr (.inr (by decide))).add even
  · rcases Nat.lt_or_ge (2 ^ 23) n with inner | first
    · exact .inl (unitsOf_below within normal below (.inr inner))
    rcases least with rfl | low
    · exact .inl (unitsOf_below within normal below (.inl rfl))
    · -- There is nothing below the first place on the grid, but the value is above it.
      have low : (n : Rat) ≤ v := le_trans (by exact_mod_cast first) low
      rw [units]
      exact .inr (mul_le_mul_of_nonneg_right low scale.le)

/-- Shifted, a quotient has no more than twenty-four binary digits, and no fewer if it was shifted
at all. -/
theorem shift_bounds (num : Nat) {den : Nat} (positive : 0 < den) {shift : Nat}
    (kept : shift = Nat.log2 (num / den) - 23) :
    num < 2 ^ 24 * (den * 2 ^ shift) ∧ (shift = 0 ∨ 2 ^ 23 * (den * 2 ^ shift) ≤ num) := by
  have regroup (digits : Nat) : 2 ^ digits * (den * 2 ^ shift) = 2 ^ (shift + digits) * den := by
    ring
  rw [regroup, regroup]
  constructor
  · rw [← Nat.div_lt_iff_lt_mul positive]
    refine lt_of_lt_of_le Nat.lt_log2_self ?_
    exact Nat.pow_le_pow_right (by decide) (by omega)
  · refine Nat.eq_zero_or_pos shift |>.imp_right fun shifted => ?_
    have exponent : shift + 23 = Nat.log2 (num / den) := by omega
    have some : num / den ≠ 0 := by
      intro none
      rw [none] at exponent
      exact absurd exponent (by simp)
    rw [← Nat.le_div_iff_mul_le positive, exponent]
    exact Nat.log2_self_le some

/-- The bits that are nearest, as they are before those out of range become the infinite ones. -/
def unboundedBits (num den : Nat) : Nat :=
  let shift := Nat.log2 (num / den) - 23
  shift * 2 ^ 23 + roundDiv num (den * 2 ^ shift)

theorem roundBits_eq (num den : Nat) :
    roundBits num den = min infiniteBits (unboundedBits num den) := rfl

theorem unboundedBits_nearest (num : Nat) {den : Nat} (positive : 0 < den) :
    NearestBits (num / den) (unboundedBits num den) := by
  generalize kept : Nat.log2 (num / den) - 23 = shift
  obtain ⟨most, least⟩ := shift_bounds num positive kept.symm
  have grid : 0 < den * 2 ^ shift := Nat.mul_pos positive (Nat.two_pow_pos shift)
  have scale : (0 : Rat) < (den * 2 ^ shift : Nat) := by exact_mod_cast grid
  have bits : unboundedBits num den = shift * 2 ^ 23 + roundDiv num (den * 2 ^ shift) := by
    rw [← kept]
    rfl
  have value : (num / den : Rat) = num / (den * 2 ^ shift : Nat) * 2 ^ shift := by
    have : (den : Rat) ≠ 0 := by exact_mod_cast positive.ne'
    push_cast
    field_simp
  rw [bits, value]
  refine .of_grid (roundDiv_nearest num grid) ?_ (least.imp_right fun low => ?_)
  · rw [div_le_iff₀ scale]
    exact_mod_cast most.le
  · rw [le_div_iff₀ scale]
    exact_mod_cast low

/-- A finite number that is nearest to a value; where the last place decides, it is even. -/
structure IsNearest (q : Rat) (x : Single) : Prop where
  finite : x.isFinite = true
  least : ∀ y : Single, y.isFinite = true → |q - x.toRat| ≤ |q - y.toRat|
  even : ∀ y : Single, y.isFinite = true → y.toRat ≠ x.toRat →
    |q - y.toRat| = |q - x.toRat| → Even x.bits.toNat

/-- The first value that is out of range: the middle of the largest number and what would be the
next. -/
def limit : Rat := 2 ^ 128 - 2 ^ 103

section Pack

variable {m : Nat} (within : m ≤ infiniteBits)

include within

theorem bits_pack : (pack false m).bits.toNat = m := by
  have bound : infiniteBits < 2 ^ 32 := by decide
  exact UInt32.toNat_ofNat_of_lt' (show m < 2 ^ 32 by omega)

theorem magnitude_pack : (pack false m).magnitude = m := by
  have bound : infiniteBits < 0x80000000 := by decide
  rw [magnitude, bits_pack within]
  omega

theorem isNegative_pack : (pack false m).isNegative = false := by
  have bound : infiniteBits < 0x80000000 := by decide
  rw [isNegative, bits_pack within]
  exact decide_eq_false (by omega)

end Pack

theorem eq_pack_magnitude {x : Single} (positive : x.isNegative = false) :
    x = pack false x.magnitude := by
  have small : x.bits.toNat < 0x80000000 := by simpa [isNegative] using positive
  have same : x.magnitude = x.bits.toNat := Nat.mod_eq_of_lt small
  rw [same]
  exact congrArg Single.mk UInt32.ofNat_toNat.symm

theorem toRat_of_positive {x : Single} (positive : x.isNegative = false) :
    x.toRat = unitsOf x.magnitude / 2 ^ 149 := by
  rw [toRat_eq, signedUnits, positive]
  rfl

theorem isFinite_iff (x : Single) : x.isFinite = true ↔ x.magnitude < infiniteBits :=
  decide_eq_true_iff

theorem distance_eq (q u : Rat) : |q * 2 ^ 149 - u| / 2 ^ 149 = |q - u / 2 ^ 149| := by
  have scale : (0 : Rat) < 2 ^ 149 := by positivity
  rw [div_eq_iff scale.ne', ← abs_of_pos scale, ← abs_mul, sub_mul, abs_of_pos scale,
    div_mul_cancel₀ _ scale.ne']

theorem distance_of_positive (q : Rat) {x : Single} (positive : x.isNegative = false) :
    |q - x.toRat| = |q * 2 ^ 149 - unitsOf x.magnitude| / 2 ^ 149 := by
  rw [toRat_of_positive positive, distance_eq]

section Distance

variable {q : Rat} {m : Nat} (nearest : NearestBits (q * 2 ^ 149) m) (inside : m < infiniteBits)

/-- A sign takes a number away from a value that has none. -/
theorem le_distance (nonneg : 0 ≤ q) (x : Single) :
    |q * 2 ^ 149 - unitsOf x.magnitude| / 2 ^ 149 ≤ |q - x.toRat| := by
  have apart := abs_abs_sub_abs_le q x.toRat
  rwa [abs_of_nonneg nonneg, abs_toRat, units, ← distance_eq] at apart

include inside

theorem distance_pack (q : Rat) :
    |q - (pack false m).toRat| = |q * 2 ^ 149 - unitsOf m| / 2 ^ 149 := by
  rw [distance_of_positive q (isNegative_pack inside.le), magnitude_pack inside.le]

include nearest

theorem NearestBits.isNearest (nonneg : 0 ≤ q) : (pack false m).IsNearest q where
  finite := by rwa [isFinite_iff, magnitude_pack inside.le]
  least y _ := by
    rw [distance_pack inside]
    refine le_trans ?_ (le_distance nonneg y)
    exact div_le_div_of_nonneg_right (nearest.least _) (by positivity)
  even y _ other tie := by
    have bound := le_distance nonneg y
    rw [tie, distance_pack inside, div_le_div_iff_of_pos_right (by positivity)] at bound
    rw [bits_pack inside.le]
    rcases eq_or_ne y.magnitude m with same | apart
    · -- The number with the other sign is as near only to zero, and then it is zero itself.
      have sizes : |y.toRat| = |(pack false m).toRat| := by
        rw [abs_toRat, abs_toRat, units, units, same, magnitude_pack inside.le]
      have opposite := (abs_eq_abs.mp sizes).resolve_left other
      have positive : (0 : Rat) ≤ unitsOf m / 2 ^ 149 := by positivity
      rw [opposite, toRat_of_positive (isNegative_pack inside.le), magnitude_pack inside.le,
        sub_neg_eq_add, abs_of_nonneg (add_nonneg nonneg positive), eq_comm, abs_eq (by positivity)]
        at tie
      have none : (unitsOf m : Rat) = 0 := by
        rcases tie with same | other
        · linarith
        · have zero : q = 0 := by linarith
          have least := nearest.least 0
          rw [zero, unitsOf_zero, zero_mul, Nat.cast_zero, sub_zero, abs_zero, zero_sub, abs_neg]
            at least
          exact abs_eq_zero.mp (least.antisymm (abs_nonneg _))
      have none : m = 0 := unitsOf_strictMono.injective (by exact_mod_cast none)
      exact none ▸ Even.zero
    · exact nearest.even _ apart (le_antisymm bound (nearest.least _))

theorem NearestBits.eq_pack {x : Single} (isNearest : x.IsNearest q)
    (positive : x.isNegative = false) : x = pack false m := by
  have finite : (pack false m).isFinite = true := by rwa [isFinite_iff, magnitude_pack inside.le]
  have insideX := (isFinite_iff x).mp isNearest.finite
  have own := isNearest.least (pack false m) finite
  have same := eq_pack_magnitude positive
  rw [distance_of_positive q positive, distance_pack inside,
    div_le_div_iff_of_pos_right (by positivity)] at own
  have tie : |q * 2 ^ 149 - unitsOf x.magnitude| = |q * 2 ^ 149 - unitsOf m| :=
    own.antisymm (nearest.least _)
  by_contra other
  have apart : x.magnitude ≠ m := fun equal => other (equal ▸ same)
  have even := isNearest.even (pack false m) finite ?_ ?_
  · rw [same, bits_pack insideX.le] at even
    exact apart (nearest.eq_of_tie tie even)
  · rw [toRat_of_positive positive, toRat_of_positive (isNegative_pack inside.le),
      magnitude_pack inside.le, Ne, div_left_inj' (by positivity), Nat.cast_inj]
    exact fun equal => apart (unitsOf_strictMono.injective equal).symm
  · rw [distance_pack inside, distance_of_positive q positive, tie]

end Distance

theorem middle_infiniteBits :
    ((unitsOf (infiniteBits - 1) + unitsOf (infiniteBits - 1 + 1)) / 2 : Rat) =
      limit * 2 ^ 149 := by
  have largest : unitsOf (infiniteBits - 1) = 16777215 * 2 ^ 253 :=
    @unitsOf_grid 253 16777215 (by decide) (by decide)
  have next : unitsOf (infiniteBits - 1 + 1) = 16777216 * 2 ^ 253 :=
    @unitsOf_grid 253 16777216 (by decide) (by decide)
  rw [largest, next, limit]
  push_cast
  ring

/-- The largest number has odd bits, so that the middle between it and the next power of two is out
of range. -/
theorem NearestBits.lt_infiniteBits_iff {q : Rat} {m : Nat}
    (nearest : NearestBits (q * 2 ^ 149) m) : m < infiniteBits ↔ q < limit := by
  have odd : ¬ Even (infiniteBits - 1) := by decide
  constructor
  · intro finite
    by_contra! large
    have above := nearest.lt_of_middle_le odd (by rw [middle_infiniteBits]; gcongr)
    omega
  · intro small
    have middle : q * 2 ^ 149 <
        (unitsOf (infiniteBits - 1) + unitsOf (infiniteBits - 1 + 1)) / 2 := by
      rw [middle_infiniteBits]
      gcongr
    exact Nat.lt_of_le_pred (by decide) (nearest.le_of_lt_middle middle)

theorem NearestBits.zero {u : Rat} (nonneg : 0 ≤ u) (small : u ≤ 1 / 2) : NearestBits u 0 := by
  have near : |u - unitsOf 0| = u := by
    rw [unitsOf_zero, Nat.cast_zero, sub_zero, abs_of_nonneg nonneg]
  refine .of_gap 1 ?_ (fun _ => Even.zero) (fun k above => ?_) (fun k below => ?_)
  · rwa [near, Nat.cast_one]
  · exact unitsOf_strictMono above
  · exact absurd below (Nat.not_lt_zero k)

end GoDecl.Single

namespace GoDecl.Decimal

open Single

theorem gridPoint_eq {n num den : Nat} {place : Int} (point : gridPoint n place = (num, den)) :
    0 < den ∧ (num / den : Rat) = n * 10 ^ place * 2 ^ 149 := by
  have one : (Single.one : Rat) = 2 ^ 149 := Nat.cast_pow 2 149
  rw [← one]
  rw [gridPoint, Nat.pow_eq] at point
  split at point <;> obtain ⟨rfl, rfl⟩ := Prod.mk.inj point
  · obtain ⟨m, rfl⟩ : ∃ m : Nat, place = -m := ⟨place.natAbs, by omega⟩
    refine ⟨by positivity, ?_⟩
    rw [Int.natAbs_neg, Int.natAbs_natCast, zpow_neg, zpow_natCast]
    push_cast
    ring
  · obtain ⟨m, rfl⟩ : ∃ m : Nat, place = m := ⟨place.natAbs, by omega⟩
    refine ⟨Nat.one_pos, ?_⟩
    rw [Int.natAbs_natCast, zpow_natCast]
    push_cast
    ring

theorem lt_ten_zpow (n : Nat) (place : Int) :
    (n * 10 ^ place : Rat) < 10 ^ (place + (digits n).length) := by
  have count : n < 10 ^ (digits n).length :=
    (length_digits_le_iff (List.length_pos_iff.mpr (digits_ne_nil n))).mp le_rfl
  rw [zpow_add₀ (by norm_num), mul_comm (_ ^ place), zpow_natCast]
  have : (n : Rat) < 10 ^ (digits n).length := by exact_mod_cast count
  gcongr

/-- A decimal becomes the bits that are nearest, or the infinite ones. The powers of ten that are
not formed are far below the smallest number or above the range. -/
theorem toSingle_nearest (n : Nat) (place : Int) :
    ∃ m, NearestBits (n * 10 ^ place * 2 ^ 149) m ∧
      toSingle n place = pack false (min infiniteBits m) := by
  have point : gridPoint n place = ((gridPoint n place).1, (gridPoint n place).2) := rfl
  obtain ⟨positive, value⟩ := gridPoint_eq point
  have nearest := unboundedBits_nearest (gridPoint n place).1 positive
  rw [value] at nearest
  have nonneg : (0 : Rat) ≤ n * 10 ^ place * 2 ^ 149 := by positivity
  unfold toSingle
  split
  · next none =>
    refine ⟨0, .zero nonneg ?_, rfl⟩
    rw [none, Nat.cast_zero, zero_mul, zero_mul]
    norm_num
  split
  · next some large =>
    have beyond : limit ≤ n * 10 ^ place := by
      have one : (1 : Rat) ≤ n := by exact_mod_cast Nat.pos_of_ne_zero some
      calc limit ≤ 1 * 10 ^ (39 : Int) := by norm_num [limit]
        _ ≤ n * 10 ^ place :=
          mul_le_mul one (zpow_le_zpow_right₀ (by norm_num) large) (by positivity) (by positivity)
    have infinite := not_lt.mp (nearest.lt_infiniteBits_iff.not.mpr beyond.not_gt)
    exact ⟨_, nearest, by rw [min_eq_left infinite]; rfl⟩
  split
  · next small =>
    refine ⟨0, .zero nonneg ?_, rfl⟩
    have tiny : (n * 10 ^ place : Rat) ≤ 10 ^ (-46 : Int) :=
      (lt_ten_zpow n place).le.trans (zpow_le_zpow_right₀ (by norm_num) (by omega))
    calc (n * 10 ^ place * 2 ^ 149 : Rat) ≤ 10 ^ (-46 : Int) * 2 ^ 149 := by gcongr
      _ ≤ 1 / 2 := by norm_num
  · exact ⟨_, nearest, congrArg (pack false) (roundBits_eq _ _)⟩

/-- In range, a decimal becomes the one number without a sign that is nearest to it. -/
theorem toSingle_eq_iff (n : Nat) (place : Int) (inRange : (n * 10 ^ place : Rat) < limit)
    (x : Single) : x.IsNearest (n * 10 ^ place) ∧ x.isNegative = false ↔ x = toSingle n place := by
  obtain ⟨m, nearest, same⟩ := toSingle_nearest n place
  have inside := nearest.lt_infiniteBits_iff.mpr inRange
  rw [same, min_eq_right inside.le]
  constructor
  · rintro ⟨isNearest, positive⟩
    exact nearest.eq_pack inside isNearest positive
  · rintro rfl
    exact ⟨nearest.isNearest inside (by positivity), isNegative_pack inside.le⟩

theorem toSingle_isFinite_iff (n : Nat) (place : Int) :
    (toSingle n place).isFinite = true ↔ (n * 10 ^ place : Rat) < limit := by
  obtain ⟨m, nearest, same⟩ := toSingle_nearest n place
  rw [same, isFinite_iff, magnitude_pack (min_le_left _ _), min_lt_iff,
    ← nearest.lt_infiniteBits_iff]
  exact or_iff_right (lt_irrefl _)

end GoDecl.Decimal
