/-
# Finite numbers of documents

Whatever number a document holds, its double-precision value is a number: a literal
that is too large is malformed and does not become infinity. Scaling keeps that step
by step, as it multiplies under a check and divides by powers of ten.
-/

import InvertibleNet.Proofs.Binary.Finite
import InvertibleNet.Proofs.Json.Keeping

namespace InvertibleNet.Json

open Outcome

/-! ## Scaling -/

/-- A number scaled by a power of ten is a number or nothing. -/
theorem isFinite_scaleByTen {value scaled : Double} {exponent : Int} (finite : value.IsFinite)
    (scales : scaleByTen value exponent = some scaled) : scaled.IsFinite := by
  induction value, exponent using scaleByTen.induct with
  | case1 value exponent listed power upward product infinite =>
      rw [scaleByTen, if_pos listed, if_pos upward, if_pos infinite] at scales
      cases scales
  | case2 value exponent listed power upward product bounded =>
      rw [scaleByTen, if_pos listed, if_pos upward, if_neg bounded] at scales
      cases scales
      exact finite.mul (Double.isFinite_powerOfTen (by omega)) (Bool.eq_false_iff.mpr bounded)
  | case3 value exponent listed downward =>
      rw [scaleByTen, if_pos listed, if_neg downward] at scales
      cases scales
      exact finite.div (Double.isScale_powerOfTen _ (by omega) (by omega))
  | case4 value exponent beyond zero =>
      rw [scaleByTen, if_neg beyond, if_pos zero] at scales
      cases scales
      exact finite
  | case5 value exponent beyond nonzero upward =>
      rw [scaleByTen, if_neg beyond, if_neg nonzero, if_pos upward] at scales
      cases scales
  | case6 value exponent beyond nonzero downward ih =>
      rw [scaleByTen, if_neg beyond, if_neg nonzero, if_neg downward] at scales
      exact ih (finite.div (Double.isScale_powerOfTen 308 (by decide) (by decide))) scales

/-! ## Literals -/

/-- Digits that fit a word, scaled and signed, are a number or nothing. -/
theorem Literal.isFinite_realValue {literal : Literal} {collected : Nat} {shift : Int}
    {value : Double} (fits : collected < Count.limit)
    (reads : literal.realValue collected shift = some value) : value.IsFinite := by
  have zero : Double.zero.IsFinite := by decide
  obtain ⟨magnitude, scales, rfl⟩ := Option.map_eq_some_iff.mp reads
  have finite : magnitude.IsFinite := by
    split at scales
    · exact isFinite_scaleByTen (Double.isFinite_ofNat fits) scales
    · dsimp only at scales
      split at scales
      · split at scales
        · cases scales
        · cases scales
          exact zero
      · exact isFinite_scaleByTen (Double.isFinite_ofNat fits) scales
  split
  · exact finite.neg
  · exact finite

/-- Every number of a document is a number in double precision. -/
theorem Number.isFinite_toDouble {text : List Char} {number : Number}
    (read : Number.ofText text = .ok number) : number.toDouble.IsFinite := by
  have whole_lt := Literal.collect_lt (show 0 < Count.limit by decide) (Literal.ofText text).whole
  have collected_lt := Literal.collect_lt whole_lt (Literal.ofText text).fraction
  unfold Number.ofText Literal.number at read
  simp only at read
  split at read
  · split at read
    · next value reads =>
      cases read
      exact Literal.isFinite_realValue collected_lt reads
    · cases read
  · split at read
    · cases read
      exact Double.isFinite_ofNat whole_lt
    · split at read
      · cases read
        exact (Double.isFinite_ofNat whole_lt).neg
      · cases read
        exact (Double.isFinite_ofNat whole_lt).neg

/-- What is read in the place of a double is a number. -/
theorem Reading.isFinite_double {place : Reading} {value : Double}
    (read : place.double = .ok value) : value.IsFinite := by
  unfold double at read
  split at read
  · next literal =>
    cases found : Number.ofText literal with
    | error fault =>
        rw [found] at read
        cases read
    | ok number =>
        rw [found] at read
        cases read
        exact Number.isFinite_toDouble found
  · exact absurd read (refuse_ne_ok _ _ _)

end InvertibleNet.Json
