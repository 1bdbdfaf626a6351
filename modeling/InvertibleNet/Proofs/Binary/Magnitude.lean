/-
# Magnitudes in single precision

Words whose sign bit is clear lie in the order of the numbers they stand for, with
infinity behind all of them and the not-a-numbers behind infinity. So on magnitudes
the comparisons of arithmetic are comparisons of words, and a largest magnitude is a
largest word. Rounding is done on the magnitude of a result and never looks at its
sign, so a difference has the magnitude of its opposite, to the last bit.
-/

import InvertibleNet.Proofs.Binary.Order

namespace InvertibleNet

open Float.Model Float.Model.UnpackedFloat

namespace Binary

/-! ## The sign of a difference -/

theorem abs_round (format : Float.Model.Format) (sign other : Sign) (mantissa : Nat)
    (exponent : Int) :
    (UnpackedFloat.round format sign mantissa exponent).abs =
      (UnpackedFloat.round format other mantissa exponent).abs := by
  simp only [UnpackedFloat.round, roundWithAccuracy]
  split
  · rfl
  · rfl

theorem abs_normalize_neg (format : Float.Model.Format) (mantissa exponent : Int)
    (zeroSign : Sign) :
    (UnpackedFloat.normalize format (-mantissa) exponent zeroSign).abs =
      (UnpackedFloat.normalize format mantissa exponent zeroSign).abs := by
  rcases Int.lt_trichotomy mantissa 0 with below | rfl | above
  · have first : compare (-mantissa) 0 = .gt := Int.compare_eq_gt.mpr (by omega)
    have second : compare mantissa 0 = .lt := Int.compare_eq_lt.mpr below
    simp only [UnpackedFloat.normalize, first, second]
    exact abs_round format _ _ _ _
  · rfl
  · have first : compare (-mantissa) 0 = .lt := Int.compare_eq_lt.mpr (by omega)
    have second : compare mantissa 0 = .gt := Int.compare_eq_gt.mpr above
    simp only [UnpackedFloat.normalize, first, second, Int.neg_neg]
    exact abs_round format _ _ _ _

/-- The two differences of two numbers have one magnitude. -/
theorem abs_sub_comm (format : Float.Model.Format) (x y : UnpackedFloat) :
    (UnpackedFloat.sub format x y).abs = (UnpackedFloat.sub format y x).abs := by
  cases x with
  | notANumber => cases y <;> rfl
  | infinity sign =>
      cases y with
      | infinity other => cases sign <;> cases other <;> rfl
      | _ => rfl
  | zero sign =>
      cases y with
      | zero other => cases sign <;> cases other <;> rfl
      | _ => rfl
  | finite sign mantissa exponent positive =>
      cases y with
      | finite other significand power some =>
          simp only [UnpackedFloat.sub]
          rw [Int.min_comm power exponent, ← abs_normalize_neg, Int.neg_sub]
      | _ => rfl

/-! ## The fields of a word -/

theorem toNat_unpackMantissa (word : BitVec 32) :
    (@unpackMantissa Format.binary32 word).toNat = word.toNat % 2 ^ 23 := by
  simp [unpackMantissa]

theorem toNat_unpackExponent (word : BitVec 32) :
    (@unpackExponent Format.binary32 word).toNat = word.toNat / 2 ^ 23 % 2 ^ 8 := by
  simp [unpackExponent, Nat.shiftRight_eq_div_pow]

theorem toNat_unpackSign (word : BitVec 32) :
    (@unpackSign Format.binary32 word).toNat = word.toNat / 2 ^ 31 := by
  have bound := word.isLt
  have top : (@unpackSign Format.binary32 word).toNat = word.toNat / 2 ^ 31 % 2 := by
    simp [unpackSign, Nat.shiftRight_eq_div_pow]
  omega

theorem magnitude_eq_fields (word : BitVec 32) :
    word.toNat % 2 ^ 31 = (@unpackExponent Format.binary32 word).toNat * 2 ^ 23 +
      (@unpackMantissa Format.binary32 word).toNat := by
  rw [toNat_unpackMantissa, toNat_unpackExponent]
  omega

/-- The exponent field of a word, in its place. -/
theorem and_exponent (word : Nat) : word &&& 0x7f800000 = word % 2 ^ 31 / 2 ^ 23 * 2 ^ 23 := by
  have mask : (0x7f800000 : Nat) = (2 ^ 8 - 1) <<< 23 := rfl
  rw [mask]
  refine Nat.eq_of_testBit_eq fun place => ?_
  rw [Nat.testBit_and, Nat.testBit_shiftLeft, Nat.testBit_two_pow_sub_one, Nat.testBit_mul_two_pow,
    Nat.testBit_div_two_pow, Nat.testBit_mod_two_pow]
  by_cases above : 23 ≤ place
  · have same : decide (place - 23 < 8) = decide (place < 31) := decide_eq_decide.mpr (by omega)
    rw [Nat.sub_add_cancel above, same, Bool.and_comm, Bool.and_assoc]
  · rw [decide_eq_false above, Bool.false_and, Bool.false_and, Bool.and_false]

/-- Packing puts the sign in front of the magnitude and nowhere else. -/
theorem magnitude_pack_abs (x : UnpackedFloat) :
    (UnpackedFloat.pack Format.binary32 x.abs).toNat % 2 ^ 31 =
      (UnpackedFloat.pack Format.binary32 x).toNat % 2 ^ 31 := by
  rw [magnitude_eq_fields, magnitude_eq_fields]
  cases x with
  | notANumber => rfl
  | infinity sign =>
      simp only [UnpackedFloat.abs, UnpackedFloat.pack, packedInfinity,
        unpackExponent_packComponents, unpackMantissa_packComponents]
  | zero sign =>
      simp only [UnpackedFloat.abs, UnpackedFloat.pack, packedZero,
        unpackExponent_packComponents, unpackMantissa_packComponents]
  | finite sign mantissa exponent positive =>
      simp only [UnpackedFloat.abs, UnpackedFloat.pack, packedInfinity]
      split
      · simp only [unpackExponent_packComponents, unpackMantissa_packComponents]
      · split
        · simp only [unpackExponent_packComponents, unpackMantissa_packComponents]
        · simp only [unpackExponent_packComponents, unpackMantissa_packComponents]

/-! ## Magnitudes as the float model reads them -/

/-- How the float model holds a magnitude. A finite one is counted in units of the last
place of the smallest numbers: the exponent field says how many binades lie below. -/
inductive Holds : Nat → UnpackedFloat → Prop
  | zero : Holds 0 (.zero .positive)
  | finite (steps significand : Nat) (positive : 0 < significand) (narrow : significand < 2 ^ 24)
      (leading : 2 ^ 23 ≤ significand ∨ steps = 0) (bounded : steps < 254) :
      Holds (steps * 2 ^ 23 + significand) (.finite .positive significand (steps - 149) positive)
  | infinite : Holds 0x7f800000 (.infinity .positive)
  | nan (word : Nat) (behind : 0x7f800000 < word) : Holds word .notANumber

/-- A word whose exponent field is neither clear nor full leaves the leading bit of its
significand out. -/
theorem holds_normal {biased : Nat} {fraction : BitVec 23} (some : 0 < biased)
    (bounded : biased < 255) (positive : 0 < (1#1 ++ fraction).toNat) :
    Holds (biased * 2 ^ 23 + fraction.toNat)
      (.finite .positive (1#1 ++ fraction).toNat
        (biased - ((Format.binary32.exponentBias : Nat) + (23 : Nat))) positive) := by
  have fraction_lt : fraction.toNat < 2 ^ 23 := fraction.isLt
  have significand : (1#1 ++ fraction).toNat = 2 ^ 23 + fraction.toNat := by
    rw [BitVec.toNat_append, ← Nat.shiftLeft_add_eq_or_of_lt fraction_lt]
    rfl
  have word : (biased - 1) * 2 ^ 23 + (1#1 ++ fraction).toNat =
      biased * 2 ^ 23 + fraction.toNat := by omega
  have power : ((biased - 1 : Nat) - 149 : Int) =
      biased - ((Format.binary32.exponentBias : Nat) + (23 : Nat)) := by
    have bias : Format.binary32.exponentBias = 127 := rfl
    omega
  have held := Holds.finite (biased - 1) (1#1 ++ fraction).toNat positive (by omega)
    (.inl (by omega)) (by omega)
  rw [word, power] at held
  exact held

theorem sign_of_clear {word : BitVec 32} (clear : word.toNat < 2 ^ 31) :
    Sign.ofBitVec (@unpackSign Format.binary32 word) = .positive := by
  have none : @unpackSign Format.binary32 word = 0#1 :=
    BitVec.eq_of_toNat_eq ((toNat_unpackSign word).trans (Nat.div_eq_of_lt clear))
  rw [none]
  rfl

theorem sign_of_set {word : BitVec 32} (set : 2 ^ 31 ≤ word.toNat) :
    Sign.ofBitVec (@unpackSign Format.binary32 word) = .negative := by
  have some : @unpackSign Format.binary32 word ≠ 0#1 := by
    intro none
    have top := toNat_unpackSign word
    rw [none] at top
    have nothing : (0#1).toNat = 0 := rfl
    omega
  exact if_neg some

theorem holds_unpack {word : BitVec 32} (clear : word.toNat < 2 ^ 31) :
    Holds word.toNat (UnpackedFloat.unpack Format.binary32 word) := by
  have fields := magnitude_eq_fields word
  rw [Nat.mod_eq_of_lt clear] at fields
  have biased_lt : (@unpackExponent Format.binary32 word).toNat < 2 ^ 8 := BitVec.isLt _
  have fraction_lt : (@unpackMantissa Format.binary32 word).toNat < 2 ^ 23 := BitVec.isLt _
  rw [fields]
  simp only [UnpackedFloat.unpack, sign_of_clear clear]
  split
  · next last =>
    have ones : (@unpackExponent Format.binary32 word).toNat = 255 := congrArg BitVec.toNat last
    rw [ones]
    split
    · next none =>
      have zeros : (@unpackMantissa Format.binary32 word).toNat = 0 := congrArg BitVec.toNat none
      rw [zeros]
      exact .infinite
    · next some =>
      have behind := Nat.pos_of_ne_zero fun none => some (BitVec.eq_of_toNat_eq none)
      exact .nan _ (Nat.lt_add_of_pos_right behind)
  · next last =>
    have ones : (@unpackExponent Format.binary32 word).toNat ≠ 255 :=
      fun all => last (BitVec.eq_of_toNat_eq all)
    split
    · next first =>
      have zeros : (@unpackExponent Format.binary32 word).toNat = 0 :=
        congrArg BitVec.toNat first
      rw [zeros]
      split
      · next none =>
        have nothing : (@unpackMantissa Format.binary32 word).toNat = 0 :=
          congrArg BitVec.toNat none
        rw [nothing]
        exact .zero
      · next some => exact .finite 0 _ _ (by omega) (.inr rfl) (by decide)
    · next first =>
      have some : (@unpackExponent Format.binary32 word).toNat ≠ 0 :=
        fun none => first (BitVec.eq_of_toNat_eq none)
      exact holds_normal (Nat.pos_of_ne_zero some) (by omega) _

/-- Finite magnitudes compare by their binades first and then by their significands,
which is the order of their words. -/
theorem compare_finite {steps others significand power : Nat} (narrow : significand < 2 ^ 24)
    (leading : 2 ^ 23 ≤ significand ∨ steps = 0) (fits : power < 2 ^ 24)
    (canonical : 2 ^ 23 ≤ power ∨ others = 0) :
    (compare (steps - 149 : Int) (others - 149)).then (compare significand power) =
      compare (steps * 2 ^ 23 + significand) (others * 2 ^ 23 + power) := by
  rcases Nat.lt_trichotomy steps others with fewer | rfl | more
  · have exponents : compare (steps - 149 : Int) (others - 149) = .lt :=
      Int.compare_eq_lt.mpr (by omega)
    rw [exponents, Nat.compare_eq_lt.mpr (show steps * 2 ^ 23 + significand < _ by omega)]
    rfl
  · have exponents : compare (steps - 149 : Int) (steps - 149) = .eq := Int.compare_eq_eq.mpr rfl
    rw [exponents, Ordering.eq_then]
    rcases Nat.lt_trichotomy significand power with less | rfl | greater
    · rw [Nat.compare_eq_lt.mpr less, Nat.compare_eq_lt.mpr (by omega)]
    · rw [Nat.compare_eq_eq.mpr rfl, Nat.compare_eq_eq.mpr rfl]
    · rw [Nat.compare_eq_gt.mpr greater, Nat.compare_eq_gt.mpr (by omega)]
  · have exponents : compare (steps - 149 : Int) (others - 149) = .gt :=
      Int.compare_eq_gt.mpr (by omega)
    rw [exponents, Nat.compare_eq_gt.mpr (show _ < steps * 2 ^ 23 + significand by omega)]
    rfl

/-- Magnitudes compare as their words do. -/
theorem Holds.compare_eq {first second : Nat} {x y : UnpackedFloat} (here : Holds first x)
    (there : Holds second y) :
    x.compare y = if 0x7f800000 < first ∨ 0x7f800000 < second then none
      else some (compare first second) := by
  cases here with
  | nan first behind => rw [if_pos (.inl behind)]; rfl
  | zero =>
      cases there with
      | nan second behind => rw [if_pos (.inr behind)]; rfl
      | zero => rfl
      | infinite => rfl
      | finite steps significand positive narrow leading bounded =>
          rw [if_neg (by omega), Nat.compare_eq_lt.mpr (by omega)]
          rfl
  | infinite =>
      cases there with
      | nan second behind => rw [if_pos (.inr behind)]; rfl
      | zero => rfl
      | infinite => rfl
      | finite steps significand positive narrow leading bounded =>
          rw [if_neg (by omega), Nat.compare_eq_gt.mpr (by omega)]
          rfl
  | finite steps significand positive narrow leading bounded =>
      cases there with
      | nan second behind => rw [if_pos (.inr behind)]; rfl
      | zero =>
          rw [if_neg (by omega), Nat.compare_eq_gt.mpr (by omega)]
          rfl
      | infinite =>
          rw [if_neg (by omega), Nat.compare_eq_lt.mpr (by omega)]
          rfl
      | finite others power some fits canonical below =>
          rw [if_neg (by omega), ← compare_finite narrow leading fits canonical]
          rfl

/-- Nothing whose sign bit is set is above a magnitude. -/
theorem Holds.not_lt {first : Nat} {x : UnpackedFloat} (here : Holds first x) {word : BitVec 32}
    (negative : 2 ^ 31 ≤ word.toNat) :
    x.lt (UnpackedFloat.unpack Format.binary32 word) = false := by
  simp only [UnpackedFloat.unpack, sign_of_set negative]
  repeat' split
  all_goals cases here <;> rfl

end Binary

namespace Single

/-! ## Comparisons of magnitudes -/

/-- The number as the float model holds it. -/
def unpacked (x : Single) : UnpackedFloat :=
  UnpackedFloat.unpack Format.binary32 x.bits.toBitVec

theorem unpack_toFloat32 (x : Single) : x.toFloat32.toModel.unpack = x.unpacked :=
  @Binary.unpack_pack_unpack Format.binary32 (by decide) x.bits.toBitVec

theorem less_eq (x y : Single) : x.less y = x.unpacked.lt y.unpacked := by
  rw [← unpack_toFloat32, ← unpack_toFloat32]
  show decide (decide (UnpackedFloat.lt _ _ = true) = true) = _
  rw [Bool.decide_eq_true, Bool.decide_eq_true]

/-- The order of arithmetic with equality. -/
def atMost (x y : Single) : Bool := x.toFloat32 ≤ y.toFloat32

theorem atMost_eq (x y : Single) : x.atMost y = x.unpacked.le y.unpacked := by
  rw [← unpack_toFloat32, ← unpack_toFloat32]
  show decide (decide (UnpackedFloat.le _ _ = true) = true) = _
  rw [Bool.decide_eq_true, Bool.decide_eq_true]

theorem eq_of_toNat_bits {x y : Single} (same : x.bits.toNat = y.bits.toNat) : x = y :=
  congrArg Single.mk (UInt32.toNat_inj.mp same)

/-- Whether the sign bit is clear. -/
def IsMagnitude (x : Single) : Prop := x.bits.toNat < 2 ^ 31

theorem toNat_bits_abs (x : Single) : x.abs.bits.toNat = x.bits.toNat % 2 ^ 31 := by
  rw [abs, UInt32.toNat_and]
  exact Nat.and_two_pow_sub_one_eq_mod _ 31

theorem isMagnitude_abs (x : Single) : x.abs.IsMagnitude := by
  rw [IsMagnitude, toNat_bits_abs]
  exact Nat.mod_lt _ (by decide)

variable {x y : Single}

theorem IsMagnitude.holds (magnitude : x.IsMagnitude) : Binary.Holds x.bits.toNat x.unpacked :=
  Binary.holds_unpack magnitude

theorem IsMagnitude.abs_eq (magnitude : x.IsMagnitude) : x.abs = x :=
  eq_of_toNat_bits ((toNat_bits_abs x).trans (Nat.mod_eq_of_lt magnitude))

theorem IsMagnitude.isNaN_iff (magnitude : x.IsMagnitude) :
    x.isNaN = true ↔ 0x7f800000 < x.bits.toNat := by
  have same : x.bits &&& 0x7fffffff = x.bits := congrArg bits magnitude.abs_eq
  rw [isNaN, same, decide_eq_true_iff, UInt32.lt_iff_toNat_lt]
  rfl

theorem isFinite_iff (x : Single) : x.isFinite = true ↔ x.bits.toNat % 2 ^ 31 < 0x7f800000 := by
  have exponent : (x.bits &&& 0x7f800000).toNat = x.bits.toNat % 2 ^ 31 / 2 ^ 23 * 2 ^ 23 := by
    rw [UInt32.toNat_and]
    exact Binary.and_exponent x.bits.toNat
  rw [isFinite, bne_iff_ne, ne_eq, ← UInt32.toNat_inj, exponent]
  show ¬ _ = 0x7f800000 ↔ _
  omega

/-- The total order and the words agree on magnitudes. -/
theorem IsMagnitude.rank_eq (magnitude : x.IsMagnitude) : x.rank = x.bits.toNat := by
  have same : x.bits &&& 0x7fffffff = x.bits := congrArg bits magnitude.abs_eq
  have clear : x.bits &&& 0x80000000 = 0 := by
    refine UInt32.toNat_inj.mp ((UInt32.toNat_and _ _).trans ?_)
    show x.bits.toNat &&& 2 ^ 31 = 0
    rw [Nat.and_two_pow, Nat.testBit_lt_two_pow magnitude]
    rfl
  rw [rank, same]
  exact if_pos clear

/-- A magnitude is below what has a larger word and stands for a number. -/
theorem IsMagnitude.less_iff (magnitude : x.IsMagnitude) :
    x.less y = true ↔ y.IsMagnitude ∧ x.bits.toNat < y.bits.toNat ∧ y.isNaN = false := by
  rw [less_eq]
  by_cases other : y.IsMagnitude
  · rw [UnpackedFloat.lt, magnitude.holds.compare_eq other.holds, ← Bool.not_eq_true,
      other.isNaN_iff]
    split
    · exact iff_of_false (by decide) fun above => by omega
    · rw [beq_iff_eq, Option.some_inj, Nat.compare_eq_lt]
      exact ⟨fun above => ⟨other, above, by omega⟩, fun above => above.2.1⟩
  · have none := magnitude.holds.not_lt (Nat.le_of_not_lt other)
    exact iff_of_false (Bool.eq_false_iff.mp none) fun above => other above.1

theorem IsMagnitude.atMost_iff (magnitude : x.IsMagnitude) (other : y.IsMagnitude) :
    x.atMost y = true ↔ x.bits.toNat ≤ y.bits.toNat ∧ y.isNaN = false := by
  rw [atMost_eq, UnpackedFloat.le, magnitude.holds.compare_eq other.holds, ← Bool.not_eq_true,
    other.isNaN_iff]
  split
  · exact iff_of_false (by simp) fun below => by omega
  · rw [Option.any_some, Nat.isLE_compare]
    exact ⟨fun below => ⟨below, by omega⟩, fun below => below.1⟩

/-- Whether both numbers are magnitudes and the first has no larger word. -/
structure NoLarger (x y : Single) : Prop where
  first : x.IsMagnitude
  second : y.IsMagnitude
  words : x.bits.toNat ≤ y.bits.toNat

theorem NoLarger.atMost (below : x.NoLarger y) (number : y.isNaN = false) : x.atMost y = true :=
  (below.first.atMost_iff below.second).mpr ⟨below.words, number⟩

theorem NoLarger.of_rank_le (first : x.IsMagnitude) (second : y.IsMagnitude)
    (below : x.rank ≤ y.rank) : x.NoLarger y := by
  rw [first.rank_eq, second.rank_eq] at below
  exact ⟨first, second, Int.ofNat_le.mp below⟩

theorem NoLarger.antisymm (below : x.NoLarger y) (above : y.NoLarger x) : x = y :=
  eq_of_toNat_bits (Nat.le_antisymm below.words above.words)

/-- What is no larger than a finite number below a bound is finite and below it. -/
theorem NoLarger.finite_less (below : x.NoLarger y) {bound : Single} (finite : y.isFinite = true)
    (less : y.less bound = true) : x.isFinite = true ∧ x.less bound = true := by
  obtain ⟨first, second, words⟩ := below
  obtain ⟨positive, above, number⟩ := second.less_iff.mp less
  rw [isFinite_iff, Nat.mod_eq_of_lt second] at finite
  rw [isFinite_iff, Nat.mod_eq_of_lt first, first.less_iff]
  exact ⟨Nat.lt_of_le_of_lt words finite, positive, Nat.lt_of_le_of_lt words above, number⟩

theorem toNat_bits_sub (x y : Single) :
    (x - y).bits.toNat = (UnpackedFloat.pack Format.binary32
      (UnpackedFloat.sub Format.binary32 x.unpacked y.unpacked)).toNat := by
  rw [← unpack_toFloat32, ← unpack_toFloat32]
  rfl

/-- The two differences of two numbers have one magnitude. -/
theorem abs_sub_comm (x y : Single) : (x - y).abs = (y - x).abs := by
  apply eq_of_toNat_bits
  rw [toNat_bits_abs, toNat_bits_abs, toNat_bits_sub, toNat_bits_sub,
    ← Binary.magnitude_pack_abs, Binary.abs_sub_comm, Binary.magnitude_pack_abs]

end Single

end InvertibleNet
