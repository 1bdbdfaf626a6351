/-
# Differences in single precision

The numbers of the 32-bit format have their last place on one grid, that of the smallest
numbers, or further up. So the exact difference of two numbers is a whole number of steps of
the finer of their last places, and rounding it never makes nothing of something: underflow is
gradual. A difference is therefore zero only between equal numbers, and at worst infinite.
-/

import InvertibleNet.Proofs.Binary.Finite
import InvertibleNet.Proofs.Binary.Magnitude

namespace InvertibleNet

open Float.Model Float.Model.UnpackedFloat

namespace Binary

/-! ## Packing -/

/-- The word that a float is packed into, without its sign bit. -/
def packedMagnitude (x : UnpackedFloat) : Nat :=
  (UnpackedFloat.pack Format.binary32 x).toNat % 2 ^ 31

theorem packedMagnitude_zero (sign : Sign) : packedMagnitude (.zero sign) = 0 := by
  cases sign <;> rfl

theorem magnitude_fields (sign : Sign) (biased : BitVec 8) (fraction : BitVec 23) :
    (packComponents Format.binary32 sign biased fraction).toNat % 2 ^ 31 =
      biased.toNat * 2 ^ 23 + fraction.toNat := by
  rw [magnitude_eq_fields, unpackExponent_packComponents, unpackMantissa_packComponents]

theorem packedMagnitude_eq (sign : Sign) (significand : Nat) (exponent : Int)
    (positive : 0 < significand) :
    packedMagnitude (.finite sign significand exponent positive) =
      if 256 ≤ (exponent + 127 + 23).toNat + 1 then 0x7f800000
      else if significand.log2 + 1 = 24 then
        (exponent + 127 + 23).toNat % 2 ^ 8 * 2 ^ 23 + significand % 2 ^ 23
      else significand % 2 ^ 23 := by
  have packed : UnpackedFloat.pack Format.binary32 (.finite sign significand exponent positive) =
      if 256 ≤ (exponent + 127 + 23).toNat + 1 then packedInfinity Format.binary32 sign
      else if significand.log2 + 1 = 24 then
        packComponents Format.binary32 sign (BitVec.ofNat 8 (exponent + 127 + 23).toNat)
          (BitVec.ofNat 23 significand)
      else packComponents Format.binary32 sign 0#8 (BitVec.ofNat 23 significand) := rfl
  rw [packedMagnitude, packed]
  split
  · exact magnitude_fields sign (-1#_) 0
  · split
    · rw [magnitude_fields, BitVec.toNat_ofNat, BitVec.toNat_ofNat]
    · rw [magnitude_fields, BitVec.toNat_ofNat, BitVec.toNat_ofNat]
      omega

/-- A number from the place of the smallest ones up is packed as something, at most as
infinity. -/
theorem packedMagnitude_finite (sign : Sign) {significand : Nat} {exponent : Int}
    (positive : 0 < significand) (narrow : significand < 2 ^ 24) (place : -149 ≤ exponent) :
    0 < packedMagnitude (.finite sign significand exponent positive) ∧
      packedMagnitude (.finite sign significand exponent positive) ≤ 0x7f800000 := by
  rw [packedMagnitude_eq]
  split
  · decide
  · split
    · omega
    · next bits =>
      have below : significand.log2 < 24 := (Nat.log2_lt positive.ne').mpr narrow
      have denormal : significand < 2 ^ 23 := (Nat.log2_lt positive.ne').mp (by omega)
      omega

/-! ## Rounding -/

theorem shiftLeft_pos {significand : Nat} (positive : 0 < significand) (shift : Nat) :
    0 < significand <<< shift := by
  rw [Nat.shiftLeft_eq]
  exact Nat.mul_pos positive (Nat.two_pow_pos shift)

/-- Shifting a significand to its place leaves something of it, and no more bits than fit. -/
theorem shiftToTargetExponent_bounds {significand : Nat} {exponent : Int} (accuracy : Accuracy)
    (positive : 0 < significand) (place : -149 ≤ exponent) :
    let shifted := shiftToTargetExponent Format.binary32 significand exponent accuracy
    0 < shifted.1.mantissa ∧ shifted.1.mantissa < 2 ^ 24 ∧ -149 ≤ shifted.2 := by
  have above : 2 ^ significand.log2 ≤ significand := Nat.log2_self_le positive.ne'
  have below : significand < 2 ^ (significand.log2 + 1) := Nat.lt_log2_self
  have target : Format.binary32.targetExponent (totalExponent significand exponent) =
      max (significand.log2 + 1 + exponent - 24) (-149) := rfl
  simp only [shiftToTargetExponent, shiftToExponent, mantissa_shiftRight,
    mantissa_ofMantissaAndAccuracy, target]
  generalize shifts : (max (significand.log2 + 1 + exponent - 24) (-149) - exponent).toNat = shift
  -- A shift that moves anything leaves 24 bits; none is made across the end of the grid.
  have shift_le : shift ≤ significand.log2 := by omega
  have le_shift : significand.log2 + 1 ≤ shift + 24 := by omega
  refine ⟨?_, ?_, by omega⟩
  · exact Nat.div_pos ((Nat.pow_le_pow_right (by decide) shift_le).trans above)
      (Nat.two_pow_pos _)
  · apply Nat.div_lt_of_lt_mul
    calc significand < 2 ^ (significand.log2 + 1) := below
      _ ≤ 2 ^ (shift + 24) := Nat.pow_le_pow_right (by decide) le_shift
      _ = 2 ^ shift * 2 ^ 24 := Nat.pow_add ..

/-- What has its last place on the grid is rounded to a number that has it there. -/
theorem exists_roundWithAccuracy (sign : Sign) {significand : Nat} {exponent : Int}
    (accuracy : Accuracy) (positive : 0 < significand) (place : -149 ≤ exponent) :
    ∃ rounded power some,
      roundWithAccuracy Format.binary32 sign significand exponent accuracy =
        .finite sign rounded power some ∧ rounded < 2 ^ 24 ∧ -149 ≤ power := by
  obtain ⟨kept, -, above⟩ := shiftToTargetExponent_bounds accuracy positive place
  have rounded := kept.trans_le (roundedMantissa_bounds _).1
  obtain ⟨some, narrow, higher⟩ := shiftToTargetExponent_bounds .exact rounded above
  exact ⟨_, _, some, dif_neg some.ne', narrow, higher⟩

theorem packedMagnitude_round (sign : Sign) {significand : Nat} {exponent : Int}
    (positive : 0 < significand) (place : -149 ≤ exponent) :
    0 < packedMagnitude (UnpackedFloat.round Format.binary32 sign significand exponent) ∧
      packedMagnitude (UnpackedFloat.round Format.binary32 sign significand exponent) ≤
        0x7f800000 := by
  have above : -149 ≤ Format.binary32.targetExponent (totalExponent significand exponent) :=
    le_max_right _ _
  simp only [UnpackedFloat.round, decreaseExponent]
  generalize Format.binary32.targetExponent (totalExponent significand exponent) = target at above ⊢
  obtain ⟨rounded, power, some, same, narrow, higher⟩ := exists_roundWithAccuracy sign .exact
    (shiftLeft_pos positive (exponent - target).toNat)
    (show -149 ≤ exponent - (exponent - target).toNat by omega)
  rw [same]
  exact packedMagnitude_finite sign some narrow higher

/-- A whole number of steps of the grid is packed as nothing exactly if there are none. -/
theorem packedMagnitude_normalize (steps : Int) {exponent : Int} (place : -149 ≤ exponent)
    (zeroSign : Sign) :
    (packedMagnitude (UnpackedFloat.normalize Format.binary32 steps exponent zeroSign) = 0 ↔
      steps = 0) ∧
      packedMagnitude (UnpackedFloat.normalize Format.binary32 steps exponent zeroSign) ≤
        0x7f800000 := by
  rcases Int.lt_trichotomy steps 0 with below | rfl | above
  · simp only [UnpackedFloat.normalize, Int.compare_eq_lt.mpr below]
    obtain ⟨some, bounded⟩ :=
      packedMagnitude_round .negative (show 0 < (-steps).toNat by omega) place
    exact ⟨iff_of_false some.ne' below.ne, bounded⟩
  · have nothing := packedMagnitude_zero zeroSign
    exact ⟨iff_of_true nothing rfl, nothing.trans_le (Nat.zero_le _)⟩
  · simp only [UnpackedFloat.normalize, Int.compare_eq_gt.mpr above]
    obtain ⟨some, bounded⟩ := packedMagnitude_round .positive (show 0 < steps.toNat by omega) place
    exact ⟨iff_of_false some.ne' above.ne', bounded⟩

/-! ## Differences of numbers -/

/-- Whether a float is a number of the format: its last place is on the grid of the smallest
numbers, and above it the significand has its leading bit. -/
inductive OnGrid : UnpackedFloat → Prop
  | zero (sign : Sign) : OnGrid (.zero sign)
  | finite (sign : Sign) (significand : Nat) (exponent : Int) (positive : 0 < significand)
      (narrow : significand < 2 ^ 24) (place : -149 ≤ exponent)
      (leading : 2 ^ 23 ≤ significand ∨ exponent = -149) :
      OnGrid (.finite sign significand exponent positive)

/-- A number with a higher last place has more steps of the lower one. -/
theorem lt_shiftLeft {significand other : Nat} {exponent power : Int}
    (narrow : significand < 2 ^ 24) (place : -149 ≤ exponent) (below : exponent < power)
    (leading : 2 ^ 23 ≤ other ∨ power = -149) :
    significand < other <<< (power - exponent).toNat := by
  -- Its last place is above the end of the grid, so its leading bit is set.
  have leads : 2 ^ 23 ≤ other := by omega
  have doubled : 2 ^ 1 ≤ 2 ^ (power - exponent).toNat :=
    Nat.pow_le_pow_right (by decide) (by omega)
  rw [Nat.shiftLeft_eq]
  calc significand < 2 ^ 23 * 2 ^ 1 := narrow
    _ ≤ other * 2 ^ (power - exponent).toNat := Nat.mul_le_mul leads doubled

/-- Two numbers have as many steps of the finer last place only if they are the same. -/
theorem shiftLeft_eq_shiftLeft_iff {significand other : Nat} {exponent power : Int}
    (narrow : significand < 2 ^ 24) (place : -149 ≤ exponent)
    (leading : 2 ^ 23 ≤ significand ∨ exponent = -149)
    (fits : other < 2 ^ 24) (above : -149 ≤ power) (canonical : 2 ^ 23 ≤ other ∨ power = -149) :
    significand <<< (exponent - min exponent power).toNat =
        other <<< (power - min exponent power).toNat ↔
      significand = other ∧ exponent = power := by
  rcases Int.lt_trichotomy exponent power with below | rfl | behind
  · have more := lt_shiftLeft narrow place below canonical
    rw [Int.min_eq_left below.le, Int.sub_self, Int.toNat_zero, Nat.shiftLeft_zero]
    exact iff_of_false more.ne fun same => below.ne same.2
  · rw [Int.min_self, Int.sub_self, Int.toNat_zero, Nat.shiftLeft_zero, Nat.shiftLeft_zero,
      and_iff_left rfl]
  · have more := lt_shiftLeft fits above behind leading
    rw [Int.min_eq_right behind.le, Int.sub_self, Int.toNat_zero, Nat.shiftLeft_zero]
    exact iff_of_false more.ne' fun same => behind.ne' same.2

theorem apply_sub_apply_eq_zero_iff {sign other : Sign} {steps others : Nat}
    (positive : 0 < steps) (some : 0 < others) :
    sign.apply steps - other.apply others = 0 ↔ sign = other ∧ steps = others := by
  cases sign with
  | negative => cases other <;> simp [Sign.apply] <;> omega
  | positive => cases other <;> simp [Sign.apply] <;> omega

/-- Whether a float is one of the two zeros. -/
def IsNothing (x : UnpackedFloat) : Prop := ∃ sign, x = .zero sign

theorem not_isNothing_finite {sign : Sign} {significand : Nat} {exponent : Int}
    {positive : 0 < significand} : ¬ IsNothing (.finite sign significand exponent positive) := by
  rintro ⟨_, same⟩
  cases same

theorem OnGrid.packedMagnitude_eq_zero_iff {x : UnpackedFloat} (onGrid : OnGrid x) :
    packedMagnitude x = 0 ↔ IsNothing x := by
  cases onGrid with
  | zero sign => exact iff_of_true (packedMagnitude_zero sign) ⟨sign, rfl⟩
  | finite sign significand exponent positive narrow place leading =>
      have some := (packedMagnitude_finite sign positive narrow place).1
      exact iff_of_false some.ne' not_isNothing_finite

/-- A difference of numbers is packed as nothing exactly if they are the same or both zero,
and never as anything behind infinity. -/
theorem packedMagnitude_sub {x y : UnpackedFloat} (first : OnGrid x) (second : OnGrid y) :
    (packedMagnitude (UnpackedFloat.sub Format.binary32 x y) = 0 ↔
      x = y ∨ IsNothing x ∧ IsNothing y) ∧
      packedMagnitude (UnpackedFloat.sub Format.binary32 x y) ≤ 0x7f800000 := by
  cases first with
  | zero sign =>
      cases second with
      | zero other =>
          have nothing : packedMagnitude
              (UnpackedFloat.sub Format.binary32 (.zero sign) (.zero other)) = 0 := by
            cases sign <;> cases other <;> rfl
          exact ⟨iff_of_true nothing (.inr ⟨⟨sign, rfl⟩, other, rfl⟩),
            nothing.trans_le (Nat.zero_le _)⟩
      | finite other significand exponent positive narrow place leading =>
          obtain ⟨some, bounded⟩ := packedMagnitude_finite (-other) positive narrow place
          refine ⟨iff_of_false some.ne' (not_or.mpr ⟨nofun, ?_⟩), bounded⟩
          exact fun both => not_isNothing_finite both.2
  | finite sign significand exponent positive narrow place leading =>
      cases second with
      | zero other =>
          obtain ⟨some, bounded⟩ := packedMagnitude_finite sign positive narrow place
          refine ⟨iff_of_false some.ne' (not_or.mpr ⟨nofun, ?_⟩), bounded⟩
          exact fun both => not_isNothing_finite both.1
      | finite other count power some fits above canonical =>
          -- Counted in steps of the finer last place, the difference in front of the rounding
          -- is exact.
          obtain ⟨nothing, bounded⟩ := packedMagnitude_normalize
            (sign.apply (significand <<< (exponent - min exponent power).toNat : Nat) -
              other.apply (count <<< (power - min exponent power).toNat : Nat))
            (show -149 ≤ min exponent power by omega) .positive
          refine ⟨nothing.trans ?_, bounded⟩
          rw [apply_sub_apply_eq_zero_iff (shiftLeft_pos positive _) (shiftLeft_pos some _),
            shiftLeft_eq_shiftLeft_iff narrow place leading fits above canonical,
            UnpackedFloat.finite.injEq]
          exact (or_iff_left fun both => not_isNothing_finite both.1).symm

end Binary

namespace Single

open Binary

/-- The sign bit is where the float model has the sign. -/
theorem unpacked_abs (x : Single) : x.abs.unpacked = x.unpacked.abs := by
  have clear : x.abs.bits.toBitVec.toNat < 2 ^ 31 := isMagnitude_abs x
  have word : x.abs.bits.toBitVec.toNat = x.bits.toBitVec.toNat % 2 ^ 31 := toNat_bits_abs x
  have exponents : @unpackExponent Format.binary32 x.abs.bits.toBitVec =
      @unpackExponent Format.binary32 x.bits.toBitVec := by
    apply BitVec.eq_of_toNat_eq
    rw [toNat_unpackExponent, toNat_unpackExponent, word]
    omega
  have fractions : @unpackMantissa Format.binary32 x.abs.bits.toBitVec =
      @unpackMantissa Format.binary32 x.bits.toBitVec := by
    apply BitVec.eq_of_toNat_eq
    rw [toNat_unpackMantissa, toNat_unpackMantissa, word]
    omega
  simp only [unpacked, UnpackedFloat.unpack, exponents, fractions, sign_of_clear clear]
  split
  · split <;> rfl
  · split
    · split <;> rfl
    · rfl

variable {x y : Single}

theorem onGrid_unpacked (finite : x.isFinite = true) : OnGrid x.unpacked := by
  have held := (isMagnitude_abs x).holds
  rw [unpacked_abs, toNat_bits_abs] at held
  rw [isFinite_iff] at finite
  generalize x.bits.toNat % 2 ^ 31 = magnitude at finite held
  generalize x.unpacked = number at held ⊢
  cases number with
  | notANumber =>
      cases held with
      | nan _ behind => omega
  | infinity sign =>
      cases held with
      | infinite => omega
  | zero sign => exact .zero sign
  | finite sign significand exponent positive =>
      cases held with
      | finite steps _ _ narrow leading _ =>
          exact .finite _ _ _ _ narrow (by omega) (by omega)

/-- A number is packed into its own word again. -/
theorem pack_unpacked (finite : x.isFinite = true) :
    UnpackedFloat.pack Format.binary32 x.unpacked = x.bits.toBitVec := by
  have number : ¬ @isNaNBits Format.binary32 x.bits.toBitVec = true := by
    intro nan
    obtain ⟨last, -⟩ := of_decide_eq_true nan
    have ones : (@unpackExponent Format.binary32 x.bits.toBitVec).toNat = 255 :=
      congrArg BitVec.toNat last
    have fields := magnitude_eq_fields x.bits.toBitVec
    have bounded := (isFinite_iff x).mp finite
    have word : x.bits.toBitVec.toNat = x.bits.toNat := rfl
    omega
  rw [unpacked, pack_unpack, if_neg number]

theorem unpacked_inj (first : x.isFinite = true) (second : y.isFinite = true) :
    x.unpacked = y.unpacked ↔ x = y := by
  refine ⟨fun same => ?_, fun same => same ▸ rfl⟩
  have words := congrArg (UnpackedFloat.pack Format.binary32) same
  rw [pack_unpacked first, pack_unpacked second] at words
  exact eq_of_toNat_bits (congrArg BitVec.toNat words)

/-! ## The magnitude of a difference -/

/-- Equality of arithmetic between numbers, where the two zeros are equal. -/
def Agrees (x y : Single) : Prop := x = y ∨ x.isZero = true ∧ y.isZero = true

instance (x y : Single) : Decidable (x.Agrees y) := inferInstanceAs (Decidable (_ ∨ _))

theorem isZero_iff_abs (x : Single) : x.isZero = true ↔ x.abs = zero := by
  rw [isZero, beq_iff_eq]
  exact (Single.mk.injEq ..).symm.to_iff

theorem isZero_iff_unpacked (finite : x.isFinite = true) :
    x.isZero = true ↔ IsNothing x.unpacked := by
  have magnitude : packedMagnitude x.unpacked = x.abs.bits.toNat := by
    rw [packedMagnitude, pack_unpacked finite, toNat_bits_abs]
    rfl
  rw [isZero_iff_abs, ← (onGrid_unpacked finite).packedMagnitude_eq_zero_iff, magnitude]
  exact ⟨fun same => congrArg (·.bits.toNat) same, fun nothing => eq_of_toNat_bits nothing⟩

theorem toNat_bits_abs_sub (x y : Single) : (x - y).abs.bits.toNat =
    packedMagnitude (UnpackedFloat.sub Format.binary32 x.unpacked y.unpacked) := by
  rw [toNat_bits_abs, toNat_bits_sub, packedMagnitude]

/-- A difference of numbers is a number or infinite. -/
theorem isNaN_abs_sub (first : x.isFinite = true) (second : y.isFinite = true) :
    (x - y).abs.isNaN = false := by
  have bounded := (packedMagnitude_sub (onGrid_unpacked first) (onGrid_unpacked second)).2
  rw [← toNat_bits_abs_sub] at bounded
  exact Bool.eq_false_iff.mpr fun nan =>
    absurd ((isMagnitude_abs _).isNaN_iff.mp nan) bounded.not_gt

/-- A difference of numbers is zero exactly if arithmetic finds them equal. -/
theorem abs_sub_eq_zero_iff (first : x.isFinite = true) (second : y.isFinite = true) :
    (x - y).abs = zero ↔ x.Agrees y := by
  have nothing := (packedMagnitude_sub (onGrid_unpacked first) (onGrid_unpacked second)).1
  rw [← toNat_bits_abs_sub, unpacked_inj first second, ← isZero_iff_unpacked first,
    ← isZero_iff_unpacked second] at nothing
  exact Iff.trans ⟨fun same => congrArg (·.bits.toNat) same, fun same => eq_of_toNat_bits same⟩
    nothing

/-- The two smallest numbers above zero are told apart. -/
example : ((⟨1⟩ : Single) - ⟨2⟩).abs ≠ zero := by
  rw [Ne, abs_sub_eq_zero_iff (by decide) (by decide)]
  decide

end Single

end InvertibleNet
