/-
# The shortest decimal of a number

The digits that are written for a number of single precision round back to it. They lie on a
coarse grid, or on the finest grid that is ever needed: there the nearest decimal is less than
half a step away and always inside the rounding interval. So few digits are written, and their
exponent stays in a small range.
-/

import InvertibleNet.Decimal.Shortest
import InvertibleNet.Proofs.Binary.Nearest
import InvertibleNet.Proofs.Decimal.Separation

namespace InvertibleNet.Decimal

open Binary

theorem ten_zpow_pos (exponent : ℤ) : (0 : ℚ) < 10 ^ exponent := zpow_pos (by norm_num) _

/-- A power of ten that has a multiple below another one is below it. -/
theorem exponent_lt {multiple : Nat} {exponent bound : ℤ} (some : 0 < multiple)
    (less : (multiple : ℚ) * 10 ^ exponent < 10 ^ bound) : exponent < bound := by
  have one : (1 : ℚ) ≤ multiple := by exact_mod_cast some
  exact (zpow_lt_zpow_iff_right₀ (by norm_num)).mp
    ((le_mul_of_one_le_left (ten_zpow_pos exponent).le one).trans_lt less)

/-! ## The power of ten below a quotient -/

/-- A natural lies between the powers of ten that its digits count. -/
theorem digitCount_bounds {value : Nat} (some : 0 < value) :
    10 ^ (digitCount value - 1) ≤ value ∧ value < 10 ^ digitCount value := by
  have positive : 0 < digitCount value := Nat.length_toDigits_pos
  refine ⟨?_, (Nat.length_toDigits_le_iff (by decide) positive).mp le_rfl⟩
  by_contra below
  rw [not_le] at below
  rcases Nat.eq_zero_or_pos (digitCount value - 1) with one | more
  · rw [one, pow_zero] at below
    omega
  · have := (Nat.length_toDigits_le_iff (by decide) more).mpr below
    rw [← digitCount] at this
    omega

/-- The magnitude of a quotient says between which powers of ten it lies. -/
theorem magnitude_bounds {numerator denominator : Nat} (first : 0 < numerator)
    (some : 0 < denominator) :
    (10 : ℚ) ^ magnitude numerator denominator ≤ numerator / denominator ∧
      (numerator : ℚ) / denominator < 10 ^ (magnitude numerator denominator + 1) := by
  have positive : (0 : ℚ) < denominator := Nat.cast_pos.mpr some
  unfold magnitude
  split
  · next above =>
    obtain ⟨low, high⟩ := digitCount_bounds (Nat.div_pos above some)
    have count : 0 < digitCount (numerator / denominator) := Nat.length_toDigits_pos
    rw [Nat.le_div_iff_mul_le some] at low
    rw [Nat.div_lt_iff_lt_mul some] at high
    rw [le_div_iff₀ positive, div_lt_iff₀ positive, sub_add_cancel, zpow_natCast,
      ← Nat.cast_pred count, zpow_natCast]
    exact ⟨by exact_mod_cast low, by exact_mod_cast high⟩
  · next below =>
    have quotient : 0 < (denominator - 1) / numerator := Nat.div_pos (by omega) first
    obtain ⟨low, high⟩ := digitCount_bounds quotient
    have count : 0 < digitCount ((denominator - 1) / numerator) := Nat.length_toDigits_pos
    rw [Nat.le_div_iff_mul_le first] at low
    rw [Nat.div_lt_iff_lt_mul first] at high
    have ten := ten_zpow_pos (digitCount ((denominator - 1) / numerator) : ℤ)
    have shift : -(digitCount ((denominator - 1) / numerator) : ℤ) + 1 =
        -((digitCount ((denominator - 1) / numerator) - 1 : Nat) : ℤ) := by omega
    rw [shift, zpow_neg, zpow_neg, inv_le_iff_one_le_mul₀ (by positivity),
      lt_inv_comm₀ (by positivity) (by positivity), inv_div, lt_div_iff₀ (by exact_mod_cast first),
      zpow_natCast, zpow_natCast, div_mul_eq_mul_div, le_div_iff₀ positive, one_mul]
    have high : denominator ≤ numerator * 10 ^ digitCount ((denominator - 1) / numerator) := by
      rw [Nat.mul_comm]
      omega
    have low : 10 ^ (digitCount ((denominator - 1) / numerator) - 1) * numerator < denominator := by
      omega
    exact ⟨by exact_mod_cast high, by exact_mod_cast low⟩

/-! ## One grid -/

namespace RoundingInterval

variable {format : Format} {significand : Nat} {exponent ten : ℤ} {tie : Tie}

/-- A part of the interval, in the unit in which the points of a grid are multiples of its step. -/
def scaledTo (ten : ℤ) (part : Nat) : Nat := part * Nat.pow 10 (-ten).toNat

/-- The step of a grid, in that unit. -/
def step (interval : RoundingInterval) (ten : ℤ) : Nat := Nat.pow 10 ten.toNat * interval.denominator

/-- Whether a decimal lies between the ends of the interval, or on one that belongs to it. -/
structure Contains (interval : RoundingInterval) (decimal : Decimal) : Prop where
  low : scaledTo decimal.exponent interval.low <
      decimal.coefficient * interval.step decimal.exponent ∨
    interval.closed = true ∧ scaledTo decimal.exponent interval.low =
      decimal.coefficient * interval.step decimal.exponent
  high : decimal.coefficient * interval.step decimal.exponent <
      scaledTo decimal.exponent interval.high ∨
    interval.closed = true ∧ decimal.coefficient * interval.step decimal.exponent =
      scaledTo decimal.exponent interval.high

/-- The ends of the interval, its number and the step of a grid are those of the exact values, all
scaled up to naturals by one factor. -/
theorem of_scaled (format : Format) (exponent : ℤ) (some : 0 < significand) (ten : ℤ) :
    ∃ scale : ℚ, 0 < scale ∧
      (scaledTo ten (of format significand exponent).low : ℚ) =
        format.lower significand exponent * scale ∧
      (scaledTo ten (of format significand exponent).value : ℚ) =
        significand * 2 ^ exponent * scale ∧
      (scaledTo ten (of format significand exponent).high : ℚ) =
        Format.upper significand exponent * scale ∧
      ((of format significand exponent).step ten : ℚ) = 10 ^ ten * scale := by
  obtain ⟨positive, quarter⟩ := scaled_value 1 one_pos (exponent - 2)
  unfold of scaledTo step
  dsimp only
  generalize (scaled 1 1 (exponent - 2)).1 = unit at quarter ⊢
  generalize (scaled 1 1 (exponent - 2)).2 = denominator at positive quarter ⊢
  have positive : (0 : ℚ) < denominator := Nat.cast_pos.mpr positive
  have unit_eq : (unit : ℚ) = 2 ^ exponent / 4 * denominator := by
    rw [div_eq_iff positive.ne', Nat.cast_one, div_one, one_mul, zpow_sub₀ two_ne_zero] at quarter
    rw [quarter]
    norm_num
  have power (exponent : Nat) : ((Nat.pow 10 exponent : Nat) : ℚ) = 10 ^ exponent :=
    Nat.cast_pow 10 exponent
  refine ⟨denominator * 10 ^ (-ten).toNat, by positivity, ?_, ?_, ?_, ?_⟩
  · rw [Nat.cast_mul, Nat.cast_mul, power, unit_eq, Nat.cast_sub (by split <;> omega), Format.lower]
    push_cast
    split <;> ring
  · rw [Nat.cast_mul, Nat.cast_mul, power, unit_eq]
    push_cast
    ring
  · rw [Nat.cast_mul, Nat.cast_mul, power, unit_eq, Format.upper]
    push_cast
    ring
  · have shift : (10 : ℚ) ^ ten.toNat = 10 ^ ten * 10 ^ (-ten).toNat := by
      rw [← zpow_natCast, ← zpow_natCast, ← zpow_add₀ (by norm_num)]
      congr 1
      omega
    rw [Nat.cast_mul, power, shift]
    ring

/-- The interval contains the decimals that round to its number. -/
theorem contains_iff (some : 0 < significand) {decimal : Decimal} :
    (of format significand exponent).Contains decimal ↔
      format.Rounds significand exponent (decimal.coefficient * 10 ^ decimal.exponent) := by
  obtain ⟨scale, scales, low, -, high, step⟩ :=
    of_scaled format exponent some decimal.exponent
  have closed : (of format significand exponent).closed = true ↔ significand % 2 = 0 :=
    decide_eq_true_iff
  have point : ((decimal.coefficient * (of format significand exponent).step decimal.exponent :
      Nat) : ℚ) = decimal.coefficient * 10 ^ decimal.exponent * scale := by
    rw [Nat.cast_mul, step, mul_assoc]
  have less {first second : ℚ} : first * scale < second * scale ↔ first < second :=
    mul_lt_mul_iff_left₀ scales
  have equal {first second : ℚ} : first * scale = second * scale ↔ first = second :=
    mul_left_inj' scales.ne'
  constructor <;> rintro ⟨below, above⟩
  · rw [closed, ← @Nat.cast_lt ℚ, ← @Nat.cast_inj ℚ _ _ (scaledTo _ _), low, point, less, equal] at below
    rw [closed, ← @Nat.cast_lt ℚ, ← @Nat.cast_inj ℚ _ _ (_ * _), high, point, less, equal] at above
    exact ⟨below, above⟩
  · constructor
    · rwa [closed, ← @Nat.cast_lt ℚ, ← @Nat.cast_inj ℚ _ _ (scaledTo _ _), low, point, less, equal]
    · rwa [closed, ← @Nat.cast_lt ℚ, ← @Nat.cast_inj ℚ _ _ (_ * _), high, point, less, equal]

section Point

variable {interval : RoundingInterval} {decimal : Decimal}

/-- A point of a grid that is taken for a number is not zero and lies in the interval. -/
theorem gridPoint?_contains (low : interval.low < interval.value)
    (high : interval.value < interval.high) (some : 0 < interval.denominator)
    (found : interval.gridPoint? tie ten = .some decimal) :
    decimal.exponent = ten ∧ 0 < decimal.coefficient ∧ interval.Contains decimal := by
  have tens : 0 < Nat.pow 10 (-ten).toNat := Nat.pow_pos (by decide)
  have low := Nat.mul_lt_mul_of_pos_right low tens
  have high := Nat.mul_lt_mul_of_pos_right high tens
  have some : 0 < Nat.pow 10 ten.toNat * interval.denominator :=
    Nat.mul_pos (Nat.pow_pos (by decide)) some
  have below := Nat.div_mul_le_self (interval.value * Nat.pow 10 (-ten).toNat)
    (Nat.pow 10 ten.toNat * interval.denominator)
  have above : interval.value * Nat.pow 10 (-ten).toNat < (interval.value *
      Nat.pow 10 (-ten).toNat / (Nat.pow 10 ten.toNat * interval.denominator) + 1) *
        (Nat.pow 10 ten.toNat * interval.denominator) := by
    rw [Nat.succ_mul]
    exact Nat.lt_div_mul_add some
  unfold gridPoint? at found
  dsimp only at found
  split at found
  · next both =>
    obtain ⟨⟨positive, fits_below⟩, fits_above⟩ := both
    split at found
    · cases found
      exact ⟨rfl, positive, fits_below, .inl (below.trans_lt high)⟩
    · cases found
      exact ⟨rfl, Nat.succ_pos _, .inl (low.trans above), fits_above⟩
  · split at found
    · next fits =>
      cases found
      exact ⟨rfl, fits.1, fits.2, .inl (below.trans_lt high)⟩
    · split at found
      · next fits =>
        cases found
        exact ⟨rfl, Nat.succ_pos _, .inl (low.trans above), fits⟩
      · cases found

/-- Where the nearer neighbour always lies in the interval, it is taken. -/
theorem gridPoint?_near (tie : Tie) (positive : 0 < interval.step ten)
    (one : interval.step ten ≤ scaledTo ten interval.value)
    (low : 2 * scaledTo ten interval.low + interval.step ten < 2 * scaledTo ten interval.value)
    (high : 2 * scaledTo ten interval.value + interval.step ten < 2 * scaledTo ten interval.high) :
    ∃ coefficient, interval.gridPoint? tie ten = .some ⟨coefficient, ten⟩ ∧
      2 * scaledTo ten interval.value ≤ 2 * (coefficient * interval.step ten) + interval.step ten ∧
      2 * (coefficient * interval.step ten) ≤
        2 * scaledTo ten interval.value + interval.step ten := by
  unfold scaledTo step at *
  unfold gridPoint?
  dsimp only
  generalize interval.low * Nat.pow 10 (-ten).toNat = bottom at *
  generalize interval.value * Nat.pow 10 (-ten).toNat = value at *
  generalize interval.high * Nat.pow 10 (-ten).toNat = top at *
  generalize Nat.pow 10 ten.toNat * interval.denominator = step at *
  have some : 0 < value / step := Nat.div_pos one positive
  have below : value / step * step ≤ value := Nat.div_mul_le_self value step
  have above : value < value / step * step + step := Nat.lt_div_mul_add positive
  have next : (value / step + 1) * step = value / step * step + step := Nat.succ_mul _ _
  -- of the two neighbours the nearer one lies inside, and it is taken
  split
  · split
    · exact ⟨_, rfl, by omega, by omega⟩
    · exact ⟨_, rfl, by omega, by omega⟩
  · next apart =>
    split
    · next fits =>
      have outside : ¬ (value / step + 1) * step < top := fun less => apart ⟨fits, .inl less⟩
      exact ⟨_, rfl, by omega, by omega⟩
    · next far =>
      have outside : ¬ bottom < value / step * step := fun less => far ⟨some, .inl less⟩
      rw [if_pos (.inl (by omega))]
      exact ⟨_, rfl, by omega, by omega⟩

end Point

/-- A point of a grid that is taken for a number rounds to it. -/
theorem gridPoint?_rounds (some : 0 < significand) {decimal : Decimal}
    (found : (of format significand exponent).gridPoint? tie ten = .some decimal) :
    decimal.exponent = ten ∧ 0 < decimal.coefficient ∧
      format.Rounds significand exponent (decimal.coefficient * 10 ^ decimal.exponent) := by
  obtain ⟨scale, scales, low, value, high, -⟩ := of_scaled format exponent some 0
  have zero (part : Nat) : scaledTo 0 part = part := Nat.mul_one part
  have unit := two_zpow_pos exponent
  rw [zero] at low value high
  have below : (of format significand exponent).low < (of format significand exponent).value := by
    rw [← @Nat.cast_lt ℚ, low, value, Format.lower]
    refine mul_lt_mul_of_pos_right (mul_lt_mul_of_pos_right ?_ unit) scales
    split <;> linarith
  have above : (of format significand exponent).value < (of format significand exponent).high := by
    rw [← @Nat.cast_lt ℚ, value, high, Format.upper]
    exact mul_lt_mul_of_pos_right (mul_lt_mul_of_pos_right (by linarith) unit) scales
  obtain ⟨place, positive, contains⟩ := gridPoint?_contains below above
    (scaled_value 1 one_pos (exponent - 2)).1 found
  exact ⟨place, positive, (contains_iff some).mp contains⟩

/-- On a fine grid a decimal is taken, and it is no more than half a step away. -/
theorem gridPoint?_fine (format : Format) (some : 0 < significand) (tie : Tie)
    (fine : (10 : ℚ) * 10 ^ ten ≤ 9 * 2 ^ (exponent - 1)) :
    ∃ coefficient, (of format significand exponent).gridPoint? tie ten = .some ⟨coefficient, ten⟩ ∧
      |(coefficient : ℚ) * 10 ^ ten - significand * 2 ^ exponent| ≤ 10 ^ ten / 2 := by
  obtain ⟨scale, scales, low, value, high, step⟩ := of_scaled format exponent some ten
  have one : (1 : ℚ) ≤ significand := by exact_mod_cast some
  have unit := two_zpow_pos exponent
  have tens := ten_zpow_pos ten
  rw [zpow_sub_one₀ two_ne_zero] at fine
  obtain ⟨coefficient, found, below, above⟩ := gridPoint?_near tie
    (by
      rw [← @Nat.cast_lt ℚ, step, Nat.cast_zero]
      positivity)
    (by
      rw [← @Nat.cast_le ℚ, step, value]
      refine mul_le_mul_of_nonneg_right ?_ scales.le
      nlinarith)
    (by
      rw [← @Nat.cast_lt ℚ, Nat.cast_add, Nat.cast_mul, Nat.cast_mul, low, step, value,
        ← mul_assoc, ← mul_assoc, ← add_mul, Nat.cast_ofNat, Format.lower]
      refine mul_lt_mul_of_pos_right ?_ scales
      split <;> linarith)
    (by
      rw [← @Nat.cast_lt ℚ, Nat.cast_add, Nat.cast_mul, Nat.cast_mul, high, step, value,
        ← mul_assoc, ← add_mul, ← mul_assoc _ (Format.upper _ _), Nat.cast_ofNat, Format.upper]
      refine mul_lt_mul_of_pos_right ?_ scales
      linarith)
  refine ⟨coefficient, found, ?_⟩
  rw [← @Nat.cast_le ℚ] at below above
  push_cast at below above
  rw [value, step] at below above
  have below : 2 * ((significand : ℚ) * 2 ^ exponent) ≤ 2 * (coefficient * 10 ^ ten) + 10 ^ ten :=
    le_of_mul_le_mul_right (by linarith) scales
  have above : 2 * (coefficient * 10 ^ ten) ≤ 2 * ((significand : ℚ) * 2 ^ exponent) + 10 ^ ten :=
    le_of_mul_le_mul_right (by linarith) scales
  rw [abs_le]
  constructor <;> linarith

end RoundingInterval

/-! ## The decimal of single precision -/

section Single

variable {significand : Nat} {exponent : ℤ}

/-- A number of single precision that is written: positive, and not too large. -/
structure IsSingle (significand : Nat) (exponent : ℤ) : Prop where
  canonical : single.IsCanonical significand exponent
  some : 0 < significand
  finite : single.word significand exponent < single.infinity

namespace IsSingle

theorem bounds (number : IsSingle significand exponent) :
    -149 ≤ exponent ∧ exponent ≤ 104 ∧ significand < 2 ^ 24 := by
  obtain ⟨⟨narrow, range, leading⟩, some, finite⟩ := number
  have least : single.minExponent = -149 := by decide
  have one : single.leadingOne = 2 ^ 23 := by decide
  have top : single.infinity = 255 * 2 ^ 23 := by decide
  rw [Format.word, top, one, least] at finite
  rw [least] at range leading
  rw [one] at narrow leading
  omega

/-- The grid that is always fine enough. -/
def finest (exponent : ℤ) : ℤ := coarsest (exponent - 1) - 1

theorem finest_bounds (number : IsSingle significand exponent) :
    (10 : ℚ) * 10 ^ finest exponent ≤ 9 * 2 ^ (exponent - 1) ∧
      (9 : ℚ) * 2 ^ (exponent - 1) < 100 * 10 ^ finest exponent := by
  obtain ⟨least, most, -⟩ := number.bounds
  obtain ⟨coarse, fine⟩ := (isSettled (by omega) (by omega) : IsSettled (exponent - 1)).grids
  refine ⟨fine, ?_⟩
  rw [← sub_add_cancel (coarsest (exponent - 1)) 1, zpow_add_one₀ (by norm_num)] at coarse
  rw [finest]
  linarith

/-- The number lies below some steps of the finest grid. -/
theorem upper_lt (number : IsSingle significand exponent) :
    Format.upper significand exponent < 10 ^ 9 * 10 ^ finest exponent := by
  obtain ⟨-, coarse⟩ := number.finest_bounds
  obtain ⟨-, -, narrow⟩ := number.bounds
  have narrow : (significand : ℚ) + 1 ≤ 2 ^ 24 := by exact_mod_cast narrow
  have unit := two_zpow_pos exponent
  rw [zpow_sub_one₀ two_ne_zero] at coarse
  rw [Format.upper]
  nlinarith

end IsSingle

/-- What is known of the decimal that is written for a number of single precision. -/
structure IsWritten (significand : Nat) (exponent : ℤ) (decimal : Decimal) : Prop where
  positive : 0 < decimal.coefficient
  rounds : single.Rounds significand exponent (decimal.coefficient * 10 ^ decimal.exponent)
  least : IsSingle.finest exponent ≤ decimal.exponent
  near : (9 : ℚ) * 2 ^ (exponent - 1) < 10 * 10 ^ decimal.exponent ∨
    (10 : ℚ) * 10 ^ decimal.exponent ≤ 9 * 2 ^ (exponent - 1) ∧
      |(decimal.coefficient : ℚ) * 10 ^ decimal.exponent - significand * 2 ^ exponent| ≤
        10 ^ decimal.exponent / 2

namespace IsWritten

variable {decimal : Decimal}

theorem le_upper (written : IsWritten significand exponent decimal) :
    (decimal.coefficient : ℚ) * 10 ^ decimal.exponent ≤ Format.upper significand exponent :=
  written.rounds.high.elim le_of_lt fun equal => equal.2.le

/-- Nine digits are enough. -/
theorem few (written : IsWritten significand exponent decimal)
    (number : IsSingle significand exponent) : decimal.coefficient < 10 ^ 9 := by
  have finer : (10 : ℚ) ^ IsSingle.finest exponent ≤ 10 ^ decimal.exponent :=
    zpow_le_zpow_right₀ (by norm_num) written.least
  have less : (decimal.coefficient : ℚ) * 10 ^ decimal.exponent < 10 ^ 9 * 10 ^ decimal.exponent :=
    (written.le_upper.trans_lt number.upper_lt).trans_le
      (mul_le_mul_of_nonneg_left finer (by positivity))
  exact_mod_cast lt_of_mul_lt_mul_right less (ten_zpow_pos _).le

/-- The decimal stays below the thirty-ninth power of ten. -/
theorem value_lt (written : IsWritten significand exponent decimal)
    (number : IsSingle significand exponent) :
    (decimal.coefficient : ℚ) * 10 ^ decimal.exponent < 10 ^ (39 : ℤ) := by
  obtain ⟨-, most, narrow⟩ := number.bounds
  have narrow : (significand : ℚ) + 1 ≤ 2 ^ 24 := by exact_mod_cast narrow
  calc (decimal.coefficient : ℚ) * 10 ^ decimal.exponent
      ≤ Format.upper significand exponent := written.le_upper
    _ ≤ 2 ^ 24 * 2 ^ (104 : ℤ) :=
        mul_le_mul (by linarith) (zpow_le_zpow_right₀ one_le_two most) (two_zpow_pos _).le
          (by norm_num)
    _ < 10 ^ (39 : ℤ) := by norm_num

theorem range (written : IsWritten significand exponent decimal)
    (number : IsSingle significand exponent) : -46 ≤ decimal.exponent ∧ decimal.exponent < 39 := by
  obtain ⟨least, -⟩ := number.bounds
  have finest := written.least
  unfold IsSingle.finest coarsest at finest
  exact ⟨by omega, exponent_lt written.positive (written.value_lt number)⟩

end IsWritten

/-- The finest grid is among those that are tried. -/
theorem finest_tried (number : IsSingle significand exponent) :
    ∃ place : Nat, place < 17 ∧
      magnitude (RoundingInterval.of single significand exponent).value
        (RoundingInterval.of single significand exponent).denominator - place =
          IsSingle.finest exponent := by
  obtain ⟨fine, -⟩ := number.finest_bounds
  obtain ⟨positive, quarter⟩ := scaled_value 1 one_pos (exponent - 2)
  have unit := two_zpow_pos exponent
  have one : (1 : ℚ) ≤ significand := by exact_mod_cast number.some
  have value : ((RoundingInterval.of single significand exponent).value : ℚ) /
      (RoundingInterval.of single significand exponent).denominator =
        significand * 2 ^ exponent := by
    rw [Nat.cast_one, div_one, one_mul, zpow_sub₀ two_ne_zero] at quarter
    unfold RoundingInterval.of
    dsimp only
    rw [Nat.cast_mul, Nat.cast_mul, mul_div_assoc, quarter]
    push_cast
    ring
  have positive : 0 < (RoundingInterval.of single significand exponent).denominator := positive
  have some : 0 < (RoundingInterval.of single significand exponent).value := by
    refine Nat.pos_of_ne_zero fun zero => ?_
    rw [zero, Nat.cast_zero, zero_div] at value
    nlinarith
  obtain ⟨low, high⟩ := magnitude_bounds some positive
  generalize magnitude _ _ = leading at low high ⊢
  rw [value] at low high
  rw [zpow_sub_one₀ two_ne_zero] at fine
  have above : (10 : ℚ) ^ IsSingle.finest exponent < 10 ^ (leading + 1) := by
    refine lt_of_le_of_lt ?_ high
    nlinarith
  have below : (10 : ℚ) ^ leading < 10 ^ (9 + IsSingle.finest exponent) := by
    rw [zpow_add₀ (by norm_num)]
    refine low.trans_lt (lt_trans ?_ number.upper_lt)
    rw [Format.upper]
    linarith
  have above := (zpow_lt_zpow_iff_right₀ (by norm_num)).mp above
  have below := (zpow_lt_zpow_iff_right₀ (by norm_num)).mp below
  exact ⟨(leading - IsSingle.finest exponent).toNat, by omega, by omega⟩

/-- In a list from coarse to fine, the first grid with a result is no finer than any that has
one. -/
theorem exists_findSome?_of_mem {α : Type} {grids : List ℤ} {grid : ℤ} {result : α}
    {f : ℤ → Option α} (decreasing : grids.Pairwise (· > ·)) (listed : grid ∈ grids)
    (has : f grid = some result) :
    ∃ taken first, grids.findSome? f = some first ∧ f taken = some first ∧ grid ≤ taken := by
  cases found : grids.findSome? f with
  | none =>
      rw [List.findSome?_eq_none_iff.mp found _ listed] at has
      cases has
  | some first =>
      obtain ⟨before, taken, behind, rfl, here, skipped⟩ := List.findSome?_eq_some_iff.mp found
      refine ⟨taken, first, rfl, here, ?_⟩
      rcases List.mem_append.mp listed with early | late
      · rw [skipped _ early] at has
        cases has
      · rcases List.mem_cons.mp late with same | later
        · exact same.le
        · exact (List.rel_of_pairwise_cons (List.pairwise_append.mp decreasing).2.1 later).le

/-- The decimal of a number of single precision. -/
theorem isWritten_shortest (number : IsSingle significand exponent) (tie : Tie) :
    IsWritten significand exponent (shortest single tie significand exponent) := by
  obtain ⟨fine, coarse⟩ := number.finest_bounds
  obtain ⟨place, tried, last⟩ := finest_tried number
  obtain ⟨coefficient, point, close⟩ :=
    RoundingInterval.gridPoint?_fine single number.some tie fine
  unfold shortest
  dsimp only
  generalize magnitude _ _ = leading at last ⊢
  have decreasing : ((List.range 17).map fun place : Nat => leading - (place : ℤ)).Pairwise
      (· > ·) :=
    List.pairwise_map.mpr (List.pairwise_lt_range.imp fun less => by omega)
  have listed : IsSingle.finest exponent ∈
      (List.range 17).map fun place : Nat => leading - (place : ℤ) :=
    List.mem_map.mpr ⟨place, List.mem_range.mpr tried, last⟩
  obtain ⟨ten, decimal, found, taken, least⟩ := exists_findSome?_of_mem decreasing listed point
  rw [found, Option.getD_some]
  obtain ⟨rfl, positive, rounds⟩ := RoundingInterval.gridPoint?_rounds number.some taken
  refine ⟨positive, rounds, least, ?_⟩
  rcases least.lt_or_eq with coarser | here
  · left
    have step : (10 : ℚ) * 10 ^ IsSingle.finest exponent ≤ 10 ^ decimal.exponent := by
      rw [mul_comm, ← zpow_add_one₀ (by norm_num)]
      exact zpow_le_zpow_right₀ (by norm_num) coarser
    linarith
  · right
    rw [← here, point] at taken
    cases taken
    exact ⟨fine, close⟩

end Single

end InvertibleNet.Decimal
