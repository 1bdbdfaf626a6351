/-
# Room for an array

Whether an array can exist is a matter of its extents: those other than zero are multiplied,
and so are the bytes counted. Fewer channels never need more room. For a shape without an
empty axis the bytes alone decide.
-/

import InvertibleNet.Proofs.Tensor.Halves

namespace InvertibleNet.Shape

/-- Leaving out zeros is multiplying by one in their place. -/
theorem foldl_filter_ne_zero (extents : List Nat) (start : Nat) :
    (extents.filter (· ≠ 0)).foldl (· * ·) start =
      extents.foldl (fun product extent => product * max extent 1) start := by
  induction extents generalizing start with
  | nil => rfl
  | cons extent extents ih =>
      by_cases empty : extent = 0
      · have kept : start * max extent 1 = start := by rw [empty, Nat.zero_max, Nat.mul_one]
        rw [List.filter_cons_of_neg (by simp [empty]), ih, List.foldl_cons, kept]
      · have kept : max extent 1 = extent := Nat.max_eq_left (Nat.one_le_iff_ne_zero.mpr empty)
        rw [List.filter_cons_of_pos (by simp [empty]), List.foldl_cons, ih, List.foldl_cons, kept]

theorem isAddressable_iff {shape : Shape} :
    shape.isAddressable = true ↔
      max shape.batch 1 * max shape.channels 1 * max shape.height 1 * max shape.width 1 <
          Count.signedLimit ∧
        4 * shape.size < Count.signedLimit := by
  have product : (shape.toList.filter (· ≠ 0)).foldl (· * ·) 1 =
      max shape.batch 1 * max shape.channels 1 * max shape.height 1 * max shape.width 1 := by
    rw [foldl_filter_ne_zero, toList]
    simp only [List.foldl_cons, List.foldl_nil, Nat.one_mul]
  rw [isAddressable, product, Bool.and_eq_true, decide_eq_true_iff, decide_eq_true_iff]

/-- A full shape can be addressed exactly if its bytes can be counted. -/
theorem IsFull.isAddressable_iff {shape : Shape} (full : shape.IsFull) :
    shape.isAddressable = true ↔ 4 * shape.size < Count.signedLimit := by
  obtain ⟨batch_pos, channels_pos, height_pos, width_pos⟩ := full
  rw [Shape.isAddressable_iff, Nat.max_eq_left batch_pos, Nat.max_eq_left channels_pos,
    Nat.max_eq_left height_pos, Nat.max_eq_left width_pos]
  unfold size
  omega

/-- An array with room for more channels has room for fewer. -/
theorem isAddressable_of_channels_le {shape : Shape} {fewer more : Nat} (ordered : fewer ≤ more)
    (room : { shape with channels := more }.isAddressable = true) :
    { shape with channels := fewer }.isAddressable = true := by
  obtain ⟨product, bytes⟩ := isAddressable_iff.mp room
  refine isAddressable_iff.mpr ⟨Nat.lt_of_le_of_lt ?_ product, Nat.lt_of_le_of_lt ?_ bytes⟩
  · have extent : max fewer 1 ≤ max more 1 := by omega
    exact Nat.mul_le_mul_right _ (Nat.mul_le_mul_right _ (Nat.mul_le_mul_left _ extent))
  · exact Nat.mul_le_mul_left _ (Nat.mul_le_mul_right _ (Nat.mul_le_mul_right _
      (Nat.mul_le_mul_left _ ordered)))

end InvertibleNet.Shape
