/-
# The nearest number of a format

A quotient of naturals is rounded to a number of a format if it lies between the two points
halfway to the neighbours of that number, and on one of these points if the significand is even.
Below the first number of a binade the neighbour is half as far away. The rounding is done on
naturals; here it is said what it gives in terms of the exact values, for every format.
-/

import Mathlib
import InvertibleNet.Binary.Format

namespace InvertibleNet.Binary

/-! ## Quotients -/

theorem two_zpow_pos (exponent : ℤ) : (0 : ℚ) < 2 ^ exponent := zpow_pos (by norm_num) _

theorem pow_toNat {base : ℚ} {exponent : ℤ} (nonneg : 0 ≤ exponent) :
    base ^ exponent.toNat = base ^ exponent := by
  rw [← zpow_natCast, Int.toNat_of_nonneg nonneg]

/-- A scaled fraction is worth the fraction times the power of two. -/
theorem scaled_value (numerator : Nat) {denominator : Nat} (some : 0 < denominator) (exponent : ℤ) :
    0 < (scaled numerator denominator exponent).2 ∧
      ((scaled numerator denominator exponent).1 : ℚ) / (scaled numerator denominator exponent).2 =
        numerator / denominator * 2 ^ exponent := by
  unfold scaled
  split
  · next up =>
    refine ⟨some, ?_⟩
    show ((numerator * 2 ^ exponent.toNat : Nat) : ℚ) / denominator = _
    rw [Nat.cast_mul, Nat.cast_pow, Nat.cast_ofNat, pow_toNat up]
    ring
  · next down =>
    refine ⟨Nat.mul_pos some (Nat.two_pow_pos _), ?_⟩
    show (numerator : ℚ) / ((denominator * 2 ^ (-exponent).toNat : Nat) : ℚ) = _
    rw [Nat.cast_mul, Nat.cast_pow, Nat.cast_ofNat, pow_toNat (by omega), zpow_neg]
    field_simp

/-- The rounded quotient is the natural whose neighbouring halves enclose the quotient; a half
itself goes to the even natural. -/
theorem roundedQuotient_of_enclosed {numerator denominator whole : Nat} (some : 0 < denominator)
    (low : 2 * (denominator * whole) < 2 * numerator + denominator ∨
      whole % 2 = 0 ∧ 2 * (denominator * whole) = 2 * numerator + denominator)
    (high : 2 * numerator < 2 * (denominator * whole) + denominator ∨
      whole % 2 = 0 ∧ 2 * numerator = 2 * (denominator * whole) + denominator) :
    roundedQuotient numerator denominator = whole := by
  have split := Nat.div_add_mod numerator denominator
  have below := Nat.mod_lt numerator some
  unfold roundedQuotient
  dsimp only
  generalize numerator / denominator = quotient at *
  generalize numerator % denominator = remainder at *
  rcases Nat.lt_or_ge whole quotient with less | more
  · have := Nat.mul_le_mul_left denominator (Nat.succ_le_of_lt less)
    rw [Nat.mul_succ] at this
    omega
  · rcases Nat.eq_or_lt_of_le more with rfl | greater
    · rw [if_neg (by omega)]
    · rcases Nat.eq_or_lt_of_le (Nat.succ_le_of_lt greater) with rfl | beyond
      · rw [Nat.mul_succ] at low high
        rw [if_pos (by omega)]
      · have := Nat.mul_le_mul_left denominator (Nat.succ_le_of_lt beyond)
        rw [Nat.mul_succ, Nat.mul_succ] at this
        omega

/-- A quotient is rounded to the natural that is nearer than a half, or exactly a half away and
even. -/
theorem roundedQuotient_eq {numerator denominator whole : Nat} (some : 0 < denominator)
    (low : (whole : ℚ) - 1 / 2 < numerator / denominator ∨
      whole % 2 = 0 ∧ (whole : ℚ) - 1 / 2 = numerator / denominator)
    (high : (numerator : ℚ) / denominator < whole + 1 / 2 ∨
      whole % 2 = 0 ∧ (numerator : ℚ) / denominator = whole + 1 / 2) :
    roundedQuotient numerator denominator = whole := by
  have positive : (0 : ℚ) < denominator := Nat.cast_pos.mpr some
  rw [lt_div_iff₀ positive, eq_div_iff positive.ne'] at low
  rw [div_lt_iff₀ positive, div_eq_iff positive.ne'] at high
  refine roundedQuotient_of_enclosed some (low.imp (fun low => ?_) (And.imp_right fun low => ?_))
    (high.imp (fun high => ?_) (And.imp_right fun high => ?_))
  · exact_mod_cast (by linarith : (2 * (denominator * whole) : ℚ) < 2 * numerator + denominator)
  · exact_mod_cast (by linarith : (2 * (denominator * whole) : ℚ) = 2 * numerator + denominator)
  · exact_mod_cast (by linarith : (2 * numerator : ℚ) < 2 * (denominator * whole) + denominator)
  · exact_mod_cast (by linarith : (2 * numerator : ℚ) = 2 * (denominator * whole) + denominator)

/-- Rounding a quotient is off by a half at most. -/
theorem roundedQuotient_error (numerator : Nat) {denominator : Nat} (some : 0 < denominator) :
    |(roundedQuotient numerator denominator : ℚ) - numerator / denominator| ≤ 1 / 2 := by
  have positive : (0 : ℚ) < denominator := Nat.cast_pos.mpr some
  have near : 2 * numerator ≤ 2 * (denominator * roundedQuotient numerator denominator) +
        denominator ∧
      2 * (denominator * roundedQuotient numerator denominator) ≤ 2 * numerator + denominator := by
    have split := Nat.div_add_mod numerator denominator
    have below := Nat.mod_lt numerator some
    unfold roundedQuotient
    dsimp only
    split
    · rw [Nat.mul_succ]
      omega
    · omega
  generalize roundedQuotient numerator denominator = rounded at near ⊢
  obtain ⟨low, high⟩ := near
  have low : (2 * numerator : ℚ) ≤ 2 * (denominator * rounded) + denominator := by
    exact_mod_cast low
  have high : (2 * (denominator * rounded) : ℚ) ≤ 2 * numerator + denominator := by
    exact_mod_cast high
  rw [abs_le, neg_le_sub_iff_le_add, sub_le_iff_le_add, div_le_iff₀ positive,
    ← sub_le_iff_le_add', le_div_iff₀ positive]
  constructor <;> linarith

/-- A positive natural lies in the binade of its first bit. -/
theorem log2_bounds {value : Nat} (some : 0 < value) :
    (2 : ℚ) ^ (value.log2 : ℤ) ≤ value ∧ (value : ℚ) < 2 ^ (value.log2 + 1 : ℤ) := by
  constructor
  · rw [zpow_natCast]
    exact_mod_cast Nat.log2_self_le some.ne'
  · rw [zpow_add_one₀ (by norm_num), zpow_natCast, ← pow_succ]
    exact_mod_cast Nat.lt_log2_self

/-- The binary magnitude of a quotient says in which binade it lies. -/
theorem binaryMagnitude_spec {numerator denominator : Nat} (first : 0 < numerator)
    (some : 0 < denominator) :
    (2 : ℚ) ^ binaryMagnitude numerator denominator ≤ numerator / denominator ∧
      (numerator : ℚ) / denominator < 2 ^ (binaryMagnitude numerator denominator + 1) := by
  have two : (2 : ℚ) ≠ 0 := by norm_num
  have positive : (0 : ℚ) < denominator := Nat.cast_pos.mpr some
  obtain ⟨dividend_low, dividend_high⟩ := log2_bounds first
  obtain ⟨divisor_low, divisor_high⟩ := log2_bounds some
  unfold binaryMagnitude
  generalize estimated : (numerator.log2 : ℤ) - denominator.log2 = estimate
  obtain ⟨unit, value⟩ := scaled_value numerator some (-estimate)
  dsimp only
  generalize (scaled numerator denominator (-estimate)).1 = dividend at value ⊢
  generalize (scaled numerator denominator (-estimate)).2 = divisor at unit value ⊢
  have scale : divisor ≤ dividend ↔ (2 : ℚ) ^ estimate ≤ numerator / denominator := by
    rw [← Nat.cast_le (α := ℚ), ← one_le_div (Nat.cast_pos.mpr unit), value, zpow_neg,
      ← div_eq_mul_inv, one_le_div (two_zpow_pos estimate)]
  split
  · next reaches =>
    refine ⟨scale.mp reaches, ?_⟩
    calc (numerator : ℚ) / denominator
        < 2 ^ (numerator.log2 + 1 : ℤ) / 2 ^ (denominator.log2 : ℤ) := by
          gcongr
      _ = 2 ^ (estimate + 1) := by
          rw [← zpow_sub₀ two]
          congr 1
          omega
  · next short =>
    rw [sub_add_cancel]
    refine ⟨?_, lt_of_not_ge fun reaches => short (scale.mpr reaches)⟩
    calc (2 : ℚ) ^ (estimate - 1)
        = 2 ^ (numerator.log2 : ℤ) / 2 ^ (denominator.log2 + 1 : ℤ) := by
          rw [← zpow_sub₀ two]
          congr 1
          omega
      _ ≤ numerator / denominator := by
          gcongr

/-- Only one binade contains a quotient. -/
theorem binaryMagnitude_eq {numerator denominator : Nat} (first : 0 < numerator)
    (some : 0 < denominator) {exponent : ℤ}
    (low : (2 : ℚ) ^ exponent ≤ numerator / denominator)
    (high : (numerator : ℚ) / denominator < 2 ^ (exponent + 1)) :
    binaryMagnitude numerator denominator = exponent := by
  obtain ⟨above, below⟩ := binaryMagnitude_spec first some
  have one_lt : (1 : ℚ) < 2 := by norm_num
  have ends := (zpow_lt_zpow_iff_right₀ one_lt).mp (low.trans_lt below)
  have starts := (zpow_lt_zpow_iff_right₀ one_lt).mp (above.trans_lt high)
  omega

/-! ## Rounding to a number of a format -/

namespace Format

/-- Whether a number of the format is held the way its word holds it: with a leading one, or with
the smallest exponent. -/
structure IsCanonical (format : Format) (significand : Nat) (exponent : ℤ) : Prop where
  narrow : significand < 2 * format.leadingOne
  range : format.minExponent ≤ exponent
  leading : format.leadingOne ≤ significand ∨ exponent = format.minExponent

/-- The magnitude bits of a number of the format. -/
def word (format : Format) (significand : Nat) (exponent : ℤ) : Nat :=
  (exponent - format.minExponent).toNat * format.leadingOne + significand

/-- The point halfway to the number below. -/
def lower (format : Format) (significand : Nat) (exponent : ℤ) : ℚ :=
  (significand - if significand = format.leadingOne ∧ format.minExponent < exponent then 1 / 4
    else 1 / 2) * 2 ^ exponent

/-- The point halfway to the number above. -/
def upper (significand : Nat) (exponent : ℤ) : ℚ := (significand + 1 / 2) * 2 ^ exponent

/-- Whether a value is rounded to a number of the format: it lies between the two points halfway
to the neighbours, or on one of them if the significand is even. -/
structure Rounds (format : Format) (significand : Nat) (exponent : ℤ) (value : ℚ) : Prop where
  low : format.lower significand exponent < value ∨
    significand % 2 = 0 ∧ format.lower significand exponent = value
  high : value < upper significand exponent ∨
    significand % 2 = 0 ∧ value = upper significand exponent

variable {format : Format} {significand : Nat} {exponent : ℤ} {value : ℚ}

theorem cast_leadingOne (format : Format) :
    (format.leadingOne : ℚ) = 2 ^ (format.fractionBits : ℤ) := by
  rw [zpow_natCast]
  exact Nat.cast_pow 2 format.fractionBits

/-- In units of the last place, a value is rounded to a significand from half a unit below to half
a unit above. -/
theorem Rounds.units (rounds : format.Rounds significand exponent value) :
    ((significand : ℚ) - 1 / 2 < value * 2 ^ (-exponent) ∨
        significand % 2 = 0 ∧ (significand : ℚ) - 1 / 2 = value * 2 ^ (-exponent)) ∧
      (value * 2 ^ (-exponent) < (significand : ℚ) + 1 / 2 ∨
        significand % 2 = 0 ∧ value * 2 ^ (-exponent) = significand + 1 / 2) := by
  obtain ⟨low, high⟩ := rounds
  have unit := two_zpow_pos exponent
  rw [zpow_neg, ← div_eq_mul_inv, lt_div_iff₀ unit, eq_div_iff unit.ne', div_lt_iff₀ unit,
    div_eq_iff unit.ne']
  refine ⟨?_, high⟩
  unfold lower at low
  split at low
  · left
    have below : ((significand : ℚ) - 1 / 4) * 2 ^ exponent ≤ value :=
      low.elim le_of_lt fun equal => equal.2.le
    linarith
  · exact low

/-- A quotient that is rounded at a known last place. -/
theorem nearest_of_place {numerator denominator : Nat} (first : 0 < numerator) {place : ℤ}
    (last : max (binaryMagnitude numerator denominator - format.fractionBits)
      format.minExponent = place) :
    format.nearest numerator denominator =
      min (format.word (roundedQuotient (scaled numerator denominator (-place)).1
        (scaled numerator denominator (-place)).2) place) format.infinity := by
  rw [Format.nearest, if_neg first.ne', last]
  rfl

/-- Rounding goes up to infinity and no further. -/
theorem nearest_le_infinity (format : Format) (numerator denominator : Nat) :
    format.nearest numerator denominator ≤ format.infinity := by
  unfold nearest
  split
  · exact Nat.zero_le _
  · exact Nat.min_le_right _ _

/-- A value whose last place is that of the number itself. -/
theorem nearest_of_binade (canonical : format.IsCanonical significand exponent)
    {numerator denominator : Nat} (first : 0 < numerator) (some : 0 < denominator)
    (rounds : format.Rounds significand exponent (numerator / denominator))
    (reaches : (format.leadingOne : ℚ) * 2 ^ exponent ≤ numerator / denominator ∨
      exponent = format.minExponent) :
    format.nearest numerator denominator =
      min (format.word significand exponent) format.infinity := by
  obtain ⟨low, high⟩ := rounds.units
  obtain ⟨unit, scale⟩ := scaled_value numerator some (-exponent)
  have place : max (binaryMagnitude numerator denominator - format.fractionBits)
      format.minExponent = exponent := by
    obtain ⟨starts, ends⟩ := binaryMagnitude_spec first some
    generalize binaryMagnitude numerator denominator = magnitude at starts ends ⊢
    have within : (numerator : ℚ) / denominator < 2 ^ (format.fractionBits + exponent + 1) := by
      have narrow : (significand : ℚ) + 1 ≤ 2 * format.leadingOne := by
        exact_mod_cast canonical.narrow
      have units : (numerator : ℚ) / denominator * 2 ^ (-exponent) < 2 * format.leadingOne := by
        rcases high with less | ⟨-, equal⟩ <;> linarith
      rw [zpow_neg, ← div_eq_mul_inv, div_lt_iff₀ (two_zpow_pos exponent)] at units
      rwa [zpow_add_one₀ two_ne_zero, zpow_add₀ two_ne_zero, ← cast_leadingOne, mul_comm,
        ← mul_assoc]
    have top := (zpow_lt_zpow_iff_right₀ one_lt_two).mp (starts.trans_lt within)
    rcases reaches with reaches | smallest
    · rw [cast_leadingOne, ← zpow_add₀ two_ne_zero] at reaches
      have bottom := (zpow_lt_zpow_iff_right₀ one_lt_two).mp (reaches.trans_lt ends)
      have range := canonical.range
      omega
    · omega
  rw [nearest_of_place first place, roundedQuotient_eq unit (scale ▸ low) (scale ▸ high)]

/-- The first number of a binade, counted in the units of the binade below. -/
theorem word_carry (lowest : format.minExponent < exponent) :
    format.word (2 * format.leadingOne) (exponent - 1) = format.word format.leadingOne exponent := by
  have steps : (exponent - format.minExponent).toNat =
      (exponent - 1 - format.minExponent).toNat + 1 := by omega
  rw [word, word, steps]
  ring

/-- A value between the last number of a binade and the first one of the next is rounded at the
last place of the lower binade, and carries into the next. -/
theorem nearest_of_carry (lowest : format.minExponent < exponent)
    {numerator denominator : Nat} (first : 0 < numerator) (some : 0 < denominator)
    (rounds : format.Rounds format.leadingOne exponent (numerator / denominator))
    (short : (numerator : ℚ) / denominator < format.leadingOne * 2 ^ exponent) :
    format.nearest numerator denominator =
      min (format.word format.leadingOne exponent) format.infinity := by
  have unit := two_zpow_pos exponent
  have one_le : (1 : ℚ) ≤ format.leadingOne := by
    exact_mod_cast Nat.one_le_two_pow (n := format.fractionBits)
  have low : ((format.leadingOne : ℚ) - 1 / 4) * 2 ^ exponent ≤ numerator / denominator := by
    have low := rounds.low
    rw [lower, if_pos ⟨rfl, lowest⟩] at low
    exact low.elim le_of_lt fun equal => equal.2.le
  have place : max (binaryMagnitude numerator denominator - format.fractionBits)
      format.minExponent = exponent - 1 := by
    have magnitude : binaryMagnitude numerator denominator =
        format.fractionBits + exponent - 1 := by
      refine binaryMagnitude_eq first some ?_ ?_
      · refine le_trans ?_ low
        rw [zpow_sub_one₀ two_ne_zero, zpow_add₀ two_ne_zero, ← cast_leadingOne]
        nlinarith
      · rwa [sub_add_cancel, zpow_add₀ two_ne_zero, ← cast_leadingOne]
    omega
  have rounded : roundedQuotient (scaled numerator denominator (-(exponent - 1))).1
      (scaled numerator denominator (-(exponent - 1))).2 = 2 * format.leadingOne := by
    obtain ⟨divisor, scale⟩ := scaled_value numerator some (-(exponent - 1))
    have half : (numerator : ℚ) / denominator * 2 ^ (-(exponent - 1)) =
        2 * (numerator / denominator) / 2 ^ exponent := by
      rw [neg_sub, sub_eq_add_neg, zpow_add₀ two_ne_zero, zpow_neg, zpow_one]
      ring
    refine roundedQuotient_eq divisor ?_ (.inl ?_)
    · rw [scale, half, lt_div_iff₀ unit, eq_div_iff unit.ne', Nat.cast_mul, Nat.cast_ofNat]
      rcases low.lt_or_eq with less | equal
      · left
        linarith
      · right
        exact ⟨by omega, by linarith⟩
    · rw [scale, half, div_lt_iff₀ unit, Nat.cast_mul, Nat.cast_ofNat]
      linarith
  rw [nearest_of_place first place, rounded, word_carry lowest]

/-- The word of the number that a quotient is rounded to. -/
theorem nearest_eq (canonical : format.IsCanonical significand exponent) {numerator denominator : Nat}
    (first : 0 < numerator) (some : 0 < denominator)
    (rounds : format.Rounds significand exponent (numerator / denominator)) :
    format.nearest numerator denominator =
      min (format.word significand exponent) format.infinity := by
  by_cases reaches : (format.leadingOne : ℚ) * 2 ^ exponent ≤ numerator / denominator ∨
      exponent = format.minExponent
  · exact nearest_of_binade canonical first some rounds reaches
  · rw [not_or, not_le] at reaches
    obtain ⟨short, above⟩ := reaches
    have leading : significand = format.leadingOne := by
      refine le_antisymm ?_ (canonical.leading.resolve_right above)
      obtain ⟨low, -⟩ := rounds.units
      have below : (significand : ℚ) - 1 / 2 < format.leadingOne := by
        rw [← div_lt_iff₀ (two_zpow_pos exponent), div_eq_mul_inv, ← zpow_neg] at short
        rcases low with less | ⟨-, equal⟩ <;> linarith
      by_contra more
      have : format.leadingOne + 1 ≤ significand := by omega
      have : (format.leadingOne : ℚ) + 1 ≤ significand := by exact_mod_cast this
      linarith
    subst leading
    exact nearest_of_carry (lt_of_le_of_ne canonical.range (Ne.symm above)) first some rounds short

/-! ## Words -/

/-- The number of a word, by its three fields. -/
theorem decode_fields {sign biased fraction : Nat} (bit : sign < 2)
    (field : biased < format.exponentFields) (part : fraction < format.leadingOne) :
    format.decode ((sign * format.exponentFields + biased) * format.leadingOne + fraction) =
      if biased = format.exponentFields - 1 then
        if fraction = 0 then .infinite (sign == 1) else .nan
      else if biased = 0 then .finite (sign == 1) fraction format.minExponent
      else .finite (sign == 1) (fraction + format.leadingOne)
        (format.minExponent + biased - 1) := by
  have positive : 0 < format.leadingOne := Nat.two_pow_pos _
  have fields : 0 < format.exponentFields := Nat.two_pow_pos _
  have front : ((sign * format.exponentFields + biased) * format.leadingOne + fraction) /
      format.leadingOne = sign * format.exponentFields + biased := by
    rw [Nat.mul_comm, Nat.mul_add_div positive, Nat.div_eq_of_lt part, Nat.add_zero]
  have behind : ((sign * format.exponentFields + biased) * format.leadingOne + fraction) %
      format.leadingOne = fraction := by
    rw [Nat.mul_comm, Nat.mul_add_mod, Nat.mod_eq_of_lt part]
  have shifted (bits : Nat) : bits >>> format.fractionBits = bits / format.leadingOne :=
    Nat.shiftRight_eq_div_pow bits format.fractionBits
  have first (bits : Nat) : bits >>> (format.fractionBits + format.exponentBits) =
      bits / format.leadingOne / format.exponentFields := by
    rw [Nat.shiftRight_add, shifted]
    exact Nat.shiftRight_eq_div_pow _ format.exponentBits
  have top : (sign * format.exponentFields + biased) / format.exponentFields % 2 = sign := by
    rw [Nat.mul_comm, Nat.mul_add_div fields, Nat.div_eq_of_lt field, Nat.add_zero,
      Nat.mod_eq_of_lt bit]
  have exponents : (sign * format.exponentFields + biased) % format.exponentFields = biased := by
    rw [Nat.mul_comm, Nat.mul_add_mod, Nat.mod_eq_of_lt field]
  rw [decode, first, shifted, front, behind, exponents, top]

/-- The word of the sign alone. -/
def signWord (format : Format) : Nat := format.exponentFields * format.leadingOne

/-- The sign stands above the biased exponent and the fraction. -/
theorem fields_eq (format : Format) (sign biased fraction : Nat) :
    (sign * format.exponentFields + biased) * format.leadingOne + fraction =
      sign * format.signWord + (biased * format.leadingOne + fraction) := by
  rw [signWord, ← Nat.mul_assoc, Nat.add_mul, Nat.add_assoc]

/-- A word below infinity, with a sign or not, stands for the number it was made of. -/
theorem decode_word (canonical : format.IsCanonical significand exponent) {sign : Nat}
    (bit : sign < 2) (finite : format.word significand exponent < format.infinity) :
    format.decode (sign * format.signWord + format.word significand exponent) =
      .finite (sign == 1) significand exponent := by
  obtain ⟨narrow, range, leading⟩ := canonical
  obtain ⟨steps, rfl⟩ : ∃ steps : Nat, exponent = format.minExponent + steps :=
    ⟨(exponent - format.minExponent).toNat, by omega⟩
  have place : format.word significand (format.minExponent + steps) =
      steps * format.leadingOne + significand := by
    rw [word]
    congr 2
    omega
  rw [place] at finite ⊢
  unfold infinity at finite
  rcases Nat.lt_or_ge significand format.leadingOne with small | large
  · obtain rfl : steps = 0 := by omega
    have some : 0 < format.exponentFields - 1 := Nat.pos_of_ne_zero fun none => by
      simp [none] at finite
    have fields := @decode_fields format sign 0 significand bit (by omega) small
    rw [if_neg some.ne, if_pos rfl] at fields
    rw [signWord, ← Nat.mul_assoc, Nat.zero_mul, Nat.zero_add, Nat.cast_zero, add_zero]
    exact fields
  · have biased : steps + 1 < format.exponentFields - 1 := by
      refine Nat.lt_of_mul_lt_mul_right (a := format.leadingOne) ?_
      rw [Nat.succ_mul]
      omega
    have fields := @decode_fields format sign (steps + 1) (significand - format.leadingOne) bit
      (by omega) (by omega)
    have carried : (steps + 1) * format.leadingOne + (significand - format.leadingOne) =
        steps * format.leadingOne + significand := by
      rw [Nat.succ_mul]
      omega
    rw [fields_eq, carried, if_neg biased.ne, if_neg (Nat.succ_ne_zero steps),
      Nat.sub_add_cancel large] at fields
    rw [fields]
    congr 1
    push_cast
    ring

/-- A word below twice the sign is made of a sign, a biased exponent and a fraction. -/
theorem exists_fields {bits : Nat} (bounded : bits < 2 * format.signWord) :
    ∃ sign biased fraction, sign < 2 ∧ biased < format.exponentFields ∧
      fraction < format.leadingOne ∧
        bits = (sign * format.exponentFields + biased) * format.leadingOne + fraction := by
  have positive : 0 < format.leadingOne := Nat.two_pow_pos _
  have fields : 0 < format.exponentFields := Nat.two_pow_pos _
  refine ⟨bits / format.leadingOne / format.exponentFields,
    bits / format.leadingOne % format.exponentFields, bits % format.leadingOne, ?_,
    Nat.mod_lt _ fields, Nat.mod_lt _ positive, ?_⟩
  · rw [Nat.div_div_eq_div_mul]
    refine Nat.div_lt_of_lt_mul ?_
    rwa [Nat.mul_comm, Nat.mul_comm format.leadingOne]
  · rw [Nat.div_add_mod', Nat.div_add_mod']

/-- What a word below twice the sign stands for, if it is a number: its exponent and significand
are canonical and make up the word together with the sign. -/
theorem word_of_decode {bits : Nat} {negative : Bool} (bounded : bits < 2 * format.signWord)
    (number : format.decode bits = .finite negative significand exponent) :
    format.IsCanonical significand exponent ∧
      format.word significand exponent < format.infinity ∧
      bits = negative.toNat * format.signWord + format.word significand exponent := by
  obtain ⟨sign, biased, fraction, bit, field, part, rfl⟩ := exists_fields bounded
  have signed : (sign == 1).toNat = sign := by
    interval_cases sign <;> rfl
  rw [decode_fields bit field part] at number
  split at number
  · split at number <;> cases number
  · next last =>
    have below : (biased + 1) * format.leadingOne ≤ format.infinity :=
      Nat.mul_le_mul_right _ (by omega)
    rw [Nat.succ_mul] at below
    split at number
    · next first =>
      cases number
      subst first
      have word_eq : format.word significand format.minExponent = significand := by
        simp [word]
      rw [signed, fields_eq, word_eq]
      exact ⟨⟨by omega, le_rfl, .inr rfl⟩, by omega, by omega⟩
    · next some =>
      cases number
      have word_eq : format.word (fraction + format.leadingOne)
          (format.minExponent + biased - 1) = biased * format.leadingOne + fraction := by
        obtain ⟨steps, rfl⟩ := Nat.exists_eq_succ_of_ne_zero some
        have shift : (format.minExponent + ((steps.succ : Nat) : ℤ) - 1 -
            format.minExponent).toNat = steps := by omega
        rw [word, shift, Nat.succ_mul]
        omega
      rw [signed, fields_eq, word_eq]
      exact ⟨⟨by omega, by omega, .inl (by omega)⟩, by omega, rfl⟩

end Format

/-- Turning over a sign that is clear sets it. -/
theorem xor_two_pow {magnitude place : Nat} (small : magnitude < 2 ^ place) :
    magnitude ^^^ 2 ^ place = 2 ^ place + magnitude := by
  have front : (magnitude ^^^ 2 ^ place) / 2 ^ place = 1 := by
    rw [Nat.xor_div_two_pow, Nat.div_eq_of_lt small, Nat.div_self (Nat.two_pow_pos place)]
    rfl
  have behind : (magnitude ^^^ 2 ^ place) % 2 ^ place = magnitude := by
    rw [Nat.xor_mod_two_pow, Nat.mod_self, Nat.xor_zero, Nat.mod_eq_of_lt small]
  rw [← Nat.div_add_mod (magnitude ^^^ 2 ^ place) (2 ^ place), front, behind, Nat.mul_one]

end InvertibleNet.Binary
