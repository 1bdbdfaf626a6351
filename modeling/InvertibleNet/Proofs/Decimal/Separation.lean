/-
# Decimals near the halves

How near a decimal on a coarse grid can come to a point halfway between two numbers of single
precision without lying on it. Such points are odd multiples of a power of two, so the question
is how near a fraction with a bounded denominator comes to a power of two over a power of ten.
For each of the powers two neighbouring fractions enclose the quotient; no fraction with a smaller
denominator lies between them, so their own distances decide. Only three fractions come nearer
than two roundings of double precision reach, and they are named.
-/

import Mathlib

namespace InvertibleNet.Decimal

/-! ## Neighbouring fractions -/

/-- Two fractions, the lower one first. -/
structure Bracket where
  low : Nat
  lowUnit : Nat
  high : Nat
  highUnit : Nat
  deriving DecidableEq, Repr

namespace Bracket

/-- The next pair of neighbouring fractions around a quotient: the lower one moves up as far as
it stays below the quotient, and then the upper one down, with denominators below the bound. -/
def narrow (numerator denominator bound : Nat) (bracket : Bracket) : Bracket :=
  let ⟨low, lowUnit, high, highUnit⟩ := bracket
  let room := if highUnit = 0 then numerator + denominator else (bound - 1 - lowUnit) / highUnit
  let steps := min room ((lowUnit * numerator - low * denominator - 1) /
    (high * denominator - highUnit * numerator))
  let low := low + steps * high
  let lowUnit := lowUnit + steps * highUnit
  let steps := min ((bound - 1 - highUnit) / lowUnit)
    ((high * denominator - highUnit * numerator - 1) /
      (lowUnit * numerator - low * denominator))
  ⟨low, lowUnit, high + steps * low, highUnit + steps * lowUnit⟩

/-- The neighbouring fractions around a quotient after some steps, from zero and infinity on. -/
def search (numerator denominator bound : Nat) : Nat → Bracket
  | 0 => ⟨0, 1, 1, 0⟩
  | steps + 1 =>
      let bracket := search numerator denominator bound steps
      if bound ≤ bracket.lowUnit + bracket.highUnit then bracket
      else bracket.narrow numerator denominator bound

/-- Whether two neighbouring fractions enclose a quotient, and no fraction with a denominator
below the bound lies between them. -/
structure Encloses (bracket : Bracket) (numerator denominator bound : Nat) : Prop where
  adjacent : bracket.high * bracket.lowUnit = bracket.low * bracket.highUnit + 1
  above : bracket.low * denominator < bracket.lowUnit * numerator
  below : bracket.highUnit * numerator < bracket.high * denominator
  wide : bound ≤ bracket.lowUnit + bracket.highUnit

instance (bracket : Bracket) (numerator denominator bound : Nat) :
    Decidable (bracket.Encloses numerator denominator bound) :=
  decidable_of_iff (bracket.high * bracket.lowUnit = bracket.low * bracket.highUnit + 1 ∧
      bracket.low * denominator < bracket.lowUnit * numerator ∧
      bracket.highUnit * numerator < bracket.high * denominator ∧
      bound ≤ bracket.lowUnit + bracket.highUnit)
    ⟨fun ⟨adjacent, above, below, wide⟩ => ⟨adjacent, above, below, wide⟩,
      fun encloses => ⟨encloses.adjacent, encloses.above, encloses.below, encloses.wide⟩⟩

variable {bracket : Bracket} {numerator denominator bound : Nat}

/-- A fraction with a small denominator lies outside. -/
theorem Encloses.outside (encloses : bracket.Encloses numerator denominator bound)
    {part unit : Nat} (small : unit < bound) :
    part * bracket.lowUnit ≤ bracket.low * unit ∨
      bracket.high * unit ≤ part * bracket.highUnit := by
  obtain ⟨adjacent, -, -, wide⟩ := encloses
  by_contra inside
  rw [not_or, not_le, not_le] at inside
  obtain ⟨above, below⟩ := inside
  -- the denominator is a combination of the two others with positive coefficients
  have combined : (unit : ℤ) =
      bracket.highUnit * (part * bracket.lowUnit - bracket.low * unit) +
        bracket.lowUnit * (bracket.high * unit - part * bracket.highUnit) := by
    have adjacent : (bracket.high * bracket.lowUnit : ℤ) = bracket.low * bracket.highUnit + 1 := by
      exact_mod_cast adjacent
    linear_combination unit * adjacent.symm
  have above : (1 : ℤ) ≤ part * bracket.lowUnit - bracket.low * unit := by
    have : (bracket.low * unit : ℤ) < part * bracket.lowUnit := by exact_mod_cast above
    omega
  have below : (1 : ℤ) ≤ bracket.high * unit - part * bracket.highUnit := by
    have : (part * bracket.highUnit : ℤ) < bracket.high * unit := by exact_mod_cast below
    omega
  have least : (bracket.highUnit + bracket.lowUnit : ℤ) ≤ unit := by
    rw [combined]
    nlinarith
  omega

end Bracket

/-! ## Distances -/

/-- Whether a fraction keeps away from a quotient, by more than two roundings of double precision
can move it. -/
def IsFar (numerator denominator part unit : ℤ) : Prop :=
  10 * (unit * numerator) < 2 ^ 55 * |part * denominator - unit * numerator|

instance (numerator denominator part unit : ℤ) :
    Decidable (IsFar numerator denominator part unit) :=
  inferInstanceAs (Decidable (_ < _))

variable {numerator denominator part unit other base : ℤ}

/-- An equal fraction keeps away as far. -/
theorem IsFar.of_equal (far : IsFar numerator denominator other base) (some : 0 < base)
    (positive : 0 < unit) (equal : part * base = other * unit) :
    IsFar numerator denominator part unit := by
  unfold IsFar at far ⊢
  have scaled : base * |part * denominator - unit * numerator| =
      unit * |other * denominator - base * numerator| := by
    rw [← abs_of_pos some, ← abs_mul, abs_of_pos some, ← abs_of_pos positive, ← abs_mul,
      abs_of_pos positive]
    congr 1
    linear_combination denominator * equal
  refine lt_of_mul_lt_mul_left ?_ some.le
  calc base * (10 * (unit * numerator)) = unit * (10 * (base * numerator)) := by ring
    _ < unit * (2 ^ 55 * |other * denominator - base * numerator|) :=
        mul_lt_mul_of_pos_left far positive
    _ = base * (2 ^ 55 * |part * denominator - unit * numerator|) := by
        rw [mul_left_comm base, scaled]
        ring

/-- A fraction whose distance is at least one over the product of two small denominators keeps
away. -/
theorem isFar_of_gap (nonneg : 0 ≤ numerator) (flat : 9 * numerator < 10 * denominator)
    (some : 0 < base) (base_lt : base < 2 ^ 25) (positive : 0 < unit) (unit_lt : unit < 2 ^ 25)
    (gap : denominator ≤ base * |part * denominator - unit * numerator|) :
    IsFar numerator denominator part unit := by
  unfold IsFar
  have product : base * unit ≤ 2 ^ 50 := by
    calc base * unit ≤ 2 ^ 25 * 2 ^ 25 := mul_le_mul base_lt.le unit_lt.le positive.le (by norm_num)
      _ = 2 ^ 50 := by norm_num
  refine lt_of_mul_lt_mul_left ?_ some.le
  calc base * (10 * (unit * numerator)) = 10 * (base * unit * numerator) := by ring
    _ ≤ 10 * (2 ^ 50 * numerator) := by gcongr
    _ < 2 ^ 55 * denominator := by linarith
    _ ≤ 2 ^ 55 * (base * |part * denominator - unit * numerator|) := by gcongr
    _ = base * (2 ^ 55 * |part * denominator - unit * numerator|) := by ring

/-- A fraction other than the quotient keeps away if the quotient has a small denominator in its
lowest terms. -/
theorem isFar_of_lowest {numerator denominator part unit : Nat}
    (flat : 9 * numerator < 10 * denominator)
    (lowest : denominator / Nat.gcd numerator denominator < 2 ^ 25) (positive : 0 < unit)
    (unit_lt : unit < 2 ^ 25) (other : part * denominator ≠ unit * numerator) :
    IsFar numerator denominator part unit := by
  have divisor : 0 < Nat.gcd numerator denominator := Nat.gcd_pos_of_pos_right _ (by omega)
  obtain ⟨top, first⟩ := Nat.gcd_dvd_left numerator denominator
  obtain ⟨base, second⟩ := Nat.gcd_dvd_right numerator denominator
  generalize Nat.gcd numerator denominator = common at *
  subst first second
  rw [Nat.mul_div_cancel_left _ divisor] at lowest
  have some : 0 < base := Nat.pos_of_ne_zero fun zero => by simp [zero] at flat
  refine @isFar_of_gap _ _ _ _ base (by positivity) (by exact_mod_cast flat)
    (by exact_mod_cast some) (by exact_mod_cast lowest) (by exact_mod_cast positive)
    (by exact_mod_cast unit_lt) ?_
  have apart : (part * base - unit * top : ℤ) ≠ 0 := fun equal => other <| by
    have equal : part * base = unit * top := by
      have : (part * base : ℤ) = unit * top := by linarith
      exact_mod_cast this
    rw [Nat.mul_left_comm, equal, Nat.mul_left_comm]
  calc ((common * base : Nat) : ℤ) = base * (common * 1) := by push_cast; ring
    _ ≤ base * (common * |(part * base - unit * top : ℤ)|) := by
        gcongr
        exact Int.one_le_abs apart
    _ = base * |(part * ((common * base : Nat) : ℤ) - unit * ((common * top : Nat) : ℤ))| := by
        rw [← Nat.abs_cast common, ← abs_mul]
        push_cast
        ring_nf

namespace Bracket

variable {bracket : Bracket} {numerator denominator bound part unit : Nat}

/-- Between two neighbours there is nothing, and outside a fraction keeps away unless it is one
of them. -/
theorem Encloses.isFar (encloses : bracket.Encloses numerator denominator (2 ^ 25))
    (flat : 9 * numerator < 10 * denominator) (low_lt : bracket.lowUnit < 2 ^ 25)
    (high_lt : bracket.highUnit < 2 ^ 25) (positive : 0 < unit) (unit_lt : unit < 2 ^ 25) :
    IsFar numerator denominator part unit ∨
      (part * bracket.lowUnit = bracket.low * unit ∧
        ¬ IsFar numerator denominator bracket.low bracket.lowUnit) ∨
      (part * bracket.highUnit = bracket.high * unit ∧
        ¬ IsFar numerator denominator bracket.high bracket.highUnit) := by
  have wide := encloses.wide
  have above : (bracket.low * denominator : ℤ) < bracket.lowUnit * numerator := by
    exact_mod_cast encloses.above
  have below : (bracket.highUnit * numerator : ℤ) < bracket.high * denominator := by
    exact_mod_cast encloses.below
  have gap_far {base : Nat} (some : 0 < base) (base_lt : base < 2 ^ 25)
      (gap : (denominator : ℤ) ≤ base * |(part * denominator : ℤ) - unit * numerator|) :
      IsFar numerator denominator part unit :=
    @isFar_of_gap _ _ _ _ base (by positivity) (by exact_mod_cast flat) (by exact_mod_cast some)
      (by exact_mod_cast base_lt) (by exact_mod_cast positive) (by exact_mod_cast unit_lt) gap
  rcases encloses.outside unit_lt with low | high
  · rcases low.lt_or_eq with less | equal
    · left
      have step : (part * bracket.lowUnit + 1 : ℤ) ≤ bracket.low * unit := by exact_mod_cast less
      refine gap_far (by omega) low_lt ?_
      rw [abs_sub_comm]
      refine le_trans ?_ (mul_le_mul_of_nonneg_left (le_abs_self _) (by positivity))
      nlinarith
    · by_cases far : IsFar numerator denominator bracket.low bracket.lowUnit
      · exact .inl (far.of_equal (by omega) (by omega) (by exact_mod_cast equal))
      · exact .inr (.inl ⟨equal, far⟩)
  · rcases high.lt_or_eq with less | equal
    · left
      have step : (bracket.high * unit + 1 : ℤ) ≤ part * bracket.highUnit := by exact_mod_cast less
      refine gap_far (by omega) high_lt ?_
      refine le_trans ?_ (mul_le_mul_of_nonneg_left (le_abs_self _) (by positivity))
      nlinarith
    · by_cases far : IsFar numerator denominator bracket.high bracket.highUnit
      · exact .inl (far.of_equal (by omega) (by omega) (by exact_mod_cast equal.symm))
      · exact .inr (.inr ⟨equal.symm, far⟩)

/-- Neighbours are in lowest terms, so a fraction that equals one has a multiple of its
denominator. -/
theorem Encloses.unit_dvd (encloses : bracket.Encloses numerator denominator bound) :
    (part * bracket.lowUnit = bracket.low * unit → bracket.lowUnit ∣ unit) ∧
      (part * bracket.highUnit = bracket.high * unit → bracket.highUnit ∣ unit) := by
  have adjacent : (bracket.high * bracket.lowUnit : ℤ) = bracket.low * bracket.highUnit + 1 := by
    exact_mod_cast encloses.adjacent
  have low : Nat.Coprime bracket.lowUnit bracket.low :=
    Nat.isCoprime_iff_coprime.mp
      ⟨bracket.high, -bracket.highUnit, by linear_combination adjacent⟩
  have high : Nat.Coprime bracket.highUnit bracket.high :=
    Nat.isCoprime_iff_coprime.mp
      ⟨-bracket.low, bracket.lowUnit, by linear_combination adjacent⟩
  exact ⟨fun equal => low.dvd_of_dvd_mul_left ⟨part, by rw [← equal, Nat.mul_comm]⟩,
    fun equal => high.dvd_of_dvd_mul_left ⟨part, by rw [← equal, Nat.mul_comm]⟩⟩

end Bracket

/-! ## Powers of two over powers of ten -/

/-- A power of two over a power of ten, as numerator and denominator. -/
def quotient (power ten : ℤ) : Nat × Nat :=
  (2 ^ power.toNat * 10 ^ (-ten).toNat, 10 ^ ten.toNat * 2 ^ (-power).toNat)

/-- The least exponent of ten whose power is above nine tenths of a power of two. -/
def coarsest (power : ℤ) : ℤ := (power * 30103 - 4576) / 100000 + 1

/-- The points halfway between two numbers that a decimal comes nearer to than two roundings of
double precision reach, without lying on them: the exponent and the odd significand. -/
def exceptions : List (ℤ × Nat) := [(-108, 22841339), (-107, 22841339), (-50, 28874659)]

/-- Whether the multiples of a power of two are settled: the decimals on the coarse grids that come
near one of them lie on it, which happens only in the middle of the range, or belong to an
exception. -/
def IsSettled (power : ℤ) : Prop :=
  let (numerator, denominator) := quotient power (coarsest power)
  let (finer, finerUnit) := quotient power (coarsest power - 1)
  let bracket := Bracket.search numerator denominator (2 ^ 25) 20
  9 * numerator < 10 * denominator ∧ 10 * finerUnit ≤ 9 * finer ∧
    ((denominator / Nat.gcd numerator denominator < 2 ^ 25 ∧ -12 ≤ coarsest power ∧ power ≤ 40) ∨
      (bracket.Encloses numerator denominator (2 ^ 25) ∧ bracket.lowUnit < 2 ^ 25 ∧
        bracket.highUnit < 2 ^ 25 ∧
        (IsFar numerator denominator bracket.low bracket.lowUnit ∨
          (power, bracket.lowUnit) ∈ exceptions) ∧
        (IsFar numerator denominator bracket.high bracket.highUnit ∨
          (power, bracket.highUnit) ∈ exceptions)))

instance (power : ℤ) : Decidable (IsSettled power) :=
  inferInstanceAs (Decidable (_ ∧ _))

/-- The rows of the range of single precision. -/
theorem isSettled_row : ∀ row : Nat, row < 254 → IsSettled (row - 150) := by
  decide +kernel

section Rows

variable {power ten : ℤ} {half digits : Nat}

/-- The quotient is that of the two powers, both scaled up to naturals. -/
theorem quotient_eq (power ten : ℤ) : ∃ scale : ℚ, 0 < scale ∧
    ((quotient power ten).1 : ℚ) = 2 ^ power * scale ∧
    ((quotient power ten).2 : ℚ) = 10 ^ ten * scale := by
  have split (base : ℚ) (nonzero : base ≠ 0) (exponent : ℤ) :
      base ^ exponent.toNat = base ^ exponent * base ^ (-exponent).toNat := by
    rw [← zpow_natCast, ← zpow_natCast, ← zpow_add₀ nonzero]
    congr 1
    omega
  refine ⟨10 ^ (-ten).toNat * 2 ^ (-power).toNat, by positivity, ?_, ?_⟩
  · rw [quotient]
    push_cast
    rw [split 2 two_ne_zero power]
    ring
  · rw [quotient]
    push_cast
    rw [split 10 (by norm_num) ten]
    ring

/-- Keeping away from the quotient of two powers, in terms of the powers. -/
theorem isFar_quotient : IsFar (quotient power ten).1 (quotient power ten).2 digits half ↔
    (half : ℚ) * 2 ^ power * (10 / 2 ^ 55) < |(digits : ℚ) * 10 ^ ten - half * 2 ^ power| := by
  obtain ⟨scale, positive, first, second⟩ := quotient_eq power ten
  have distance : |(digits : ℚ) * (10 ^ ten * scale) - half * (2 ^ power * scale)| =
      |(digits : ℚ) * 10 ^ ten - half * 2 ^ power| * scale := by
    rw [← abs_of_pos positive, ← abs_mul, abs_of_pos positive]
    congr 1
    ring
  unfold IsFar
  rw [← @Int.cast_lt ℚ]
  push_cast
  rw [first, second, distance]
  constructor <;> intro less
  · refine lt_of_mul_lt_mul_right ?_ positive.le
    linarith
  · have := mul_lt_mul_of_pos_right less positive
    linarith

/-- Equality with the quotient of two powers, in terms of the powers. -/
theorem quotient_equal : digits * (quotient power ten).2 = half * (quotient power ten).1 ↔
    (digits : ℚ) * 10 ^ ten = half * 2 ^ power := by
  obtain ⟨scale, positive, first, second⟩ := quotient_eq power ten
  rw [← @Nat.cast_inj ℚ, Nat.cast_mul, Nat.cast_mul, first, second, ← mul_assoc, ← mul_assoc]
  exact mul_left_inj' positive.ne'

/-- Every power of two in the range of single precision is settled. -/
theorem isSettled (least : -150 ≤ power) (most : power ≤ 103) : IsSettled power := by
  have row := isSettled_row (power + 150).toNat (by omega)
  rwa [Int.toNat_of_nonneg (by omega), add_sub_cancel_right] at row

/-- The grid that a row is about is coarse, and the next finer one is not. -/
theorem IsSettled.grids (settled : IsSettled power) :
    (9 : ℚ) * 2 ^ power < 10 * 10 ^ coarsest power ∧
      (10 : ℚ) * 10 ^ (coarsest power - 1) ≤ 9 * 2 ^ power := by
  obtain ⟨flat, finer, -⟩ := settled
  constructor
  · obtain ⟨scale, positive, first, second⟩ := quotient_eq power (coarsest power)
    have flat : (9 * (quotient power (coarsest power)).1 : ℚ) <
        10 * (quotient power (coarsest power)).2 := by exact_mod_cast flat
    rw [first, second, ← mul_assoc, ← mul_assoc] at flat
    exact lt_of_mul_lt_mul_right flat positive.le
  · obtain ⟨scale, positive, first, second⟩ := quotient_eq power (coarsest power - 1)
    have finer : (10 * (quotient power (coarsest power - 1)).2 : ℚ) ≤
        9 * (quotient power (coarsest power - 1)).1 := by exact_mod_cast finer
    rw [first, second, ← mul_assoc, ← mul_assoc] at finer
    exact le_of_mul_le_mul_right finer positive

/-- A grid that is not fine is no finer than the coarsest one that the row is about. -/
theorem IsSettled.coarsest_le (settled : IsSettled power)
    (coarse : (9 : ℚ) * 2 ^ power < 10 * 10 ^ ten) : coarsest power ≤ ten := by
  have less : (10 : ℚ) ^ (coarsest power - 1) < 10 ^ ten := by
    linarith [settled.grids.2]
  have := (zpow_lt_zpow_iff_right₀ (by norm_num)).mp less
  omega

/-- An exception is the only odd point of its row that it divides. -/
theorem eq_of_exception {unit : Nat} (listed : (power, unit) ∈ exceptions) (some : 0 < half)
    (small : half < 2 ^ 25) (divides : unit ∣ half) : half = unit := by
  obtain ⟨factor, rfl⟩ := divides
  have large : 2 ^ 24 < unit := by
    simp only [exceptions, List.mem_cons, Prod.mk.injEq, List.not_mem_nil, or_false] at listed
    omega
  have one : factor = 1 := by
    have : 0 < factor := Nat.pos_of_mul_pos_left some
    by_contra other
    have : 2 ≤ factor := by omega
    nlinarith
  rw [one, Nat.mul_one]

/-- On the grid that a row is about, a decimal lies on a point, keeps away from it, or belongs to an
exception. -/
theorem IsSettled.cases (settled : IsSettled power) (some : 0 < half) (small : half < 2 ^ 25)
    (digits : Nat) :
    ((digits : ℚ) * 10 ^ coarsest power = half * 2 ^ power ∧ -12 ≤ coarsest power ∧ power ≤ 40) ∨
      (half : ℚ) * 2 ^ power * (10 / 2 ^ 55) <
        |(digits : ℚ) * 10 ^ coarsest power - half * 2 ^ power| ∨
      (power, half) ∈ exceptions := by
  obtain ⟨flat, -, ⟨exact, least, most⟩ | ⟨encloses, low_lt, high_lt, low, high⟩⟩ := settled
  · rw [← isFar_quotient]
    by_cases equal : digits * (quotient power (coarsest power)).2 =
        half * (quotient power (coarsest power)).1
    · exact .inl ⟨quotient_equal.mp equal, least, most⟩
    · exact .inr (.inl (isFar_of_lowest flat exact some small equal))
  · rw [← isFar_quotient]
    right
    rcases encloses.isFar flat low_lt high_lt some small with far | ⟨equal, near⟩ | ⟨equal, near⟩
    · exact .inl far
    · have listed := low.resolve_left near
      rw [eq_of_exception listed some small (encloses.unit_dvd.1 equal)]
      exact .inr listed
    · have listed := high.resolve_left near
      rw [eq_of_exception listed some small (encloses.unit_dvd.2 equal)]
      exact .inr listed

/-- A decimal on a coarse grid lies on a small multiple of a power of two in the range of single
precision, keeps away from it, or belongs to an exception. -/
theorem halves_apart (least : -150 ≤ power) (most : power ≤ 103)
    (coarse : (9 : ℚ) * 2 ^ power < 10 * 10 ^ ten) (some : 0 < half) (small : half < 2 ^ 25)
    (digits : Nat) :
    ((digits : ℚ) * 10 ^ ten = half * 2 ^ power ∧ -12 ≤ ten ∧ power ≤ 40) ∨
      (half : ℚ) * 2 ^ power * (10 / 2 ^ 55) < |(digits : ℚ) * 10 ^ ten - half * 2 ^ power| ∨
      (power, half) ∈ exceptions := by
  have settled := isSettled least most
  have least := settled.coarsest_le coarse
  have value : ((digits * 10 ^ (ten - coarsest power).toNat : Nat) : ℚ) * 10 ^ coarsest power =
      digits * 10 ^ ten := by
    rw [Nat.cast_mul, mul_assoc, Nat.cast_pow, ← zpow_natCast, Nat.cast_ofNat,
      ← zpow_add₀ (by norm_num)]
    congr 2
    omega
  rcases settled.cases some small (digits * 10 ^ (ten - coarsest power).toNat) with
    ⟨equal, place, range⟩ | apart
  · exact .inl ⟨value.symm.trans equal, place.trans least, range⟩
  · rw [value] at apart
    exact .inr apart

end Rows

end InvertibleNet.Decimal
