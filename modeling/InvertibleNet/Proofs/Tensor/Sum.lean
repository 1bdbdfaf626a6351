/-
# Sums of tensors

Tensors of one shape are added and negated entry by entry, so what has been added
can be taken away again as soon as this is so for single values. Over a group it is,
on either side; rounded numbers have none of this.
-/

import InvertibleNet.Proofs.Tensor.Halves
import Mathlib.Algebra.Group.Basic

namespace InvertibleNet.Tensor

universe u

/-- What was added in front can be taken away, if it can for every two values. -/
theorem neg_add_cancel_of_law {β : Type u} [Zero β] [Add β] [Neg β]
    (law : ∀ f a : β, -f + (f + a) = a) {x y : Tensor β} (shapes : x.shape = y.shape) :
    -x + (x + y) = y := by
  have sum_shape : (x.map (- ·)).shape = (x.combine (· + ·) y).shape := rfl
  show (x.map (- ·)).combine (· + ·) (x.combine (· + ·) y) = y
  refine eq_of_entries shapes ?_
  intro sample channel row column inside
  have inFront : x.shape.Contains sample channel row column := inside
  rw [entry_combine sum_shape inFront, entry_map inFront, entry_combine shapes inFront, law]

variable {α : Type u} [AddGroup α]

theorem entry_neg (x : Tensor α) (sample channel row column : Nat) :
    (-x).entry sample channel row column = -x.entry sample channel row column := by
  by_cases inside : x.shape.Contains sample channel row column
  · exact entry_map inside
  · have outsideNeg : ¬ (-x).shape.Contains sample channel row column := inside
    rw [entry_of_not_contains inside, entry_of_not_contains outsideNeg, neg_zero]

theorem entry_add {x y : Tensor α} (shapes : x.shape = y.shape)
    (sample channel row column : Nat) :
    (x + y).entry sample channel row column =
      x.entry sample channel row column + y.entry sample channel row column := by
  by_cases inside : x.shape.Contains sample channel row column
  · exact entry_combine shapes inside
  · have outsideOther : ¬ y.shape.Contains sample channel row column := shapes ▸ inside
    have outsideSum : ¬ (x + y).shape.Contains sample channel row column := inside
    rw [entry_of_not_contains inside, entry_of_not_contains outsideOther,
      entry_of_not_contains outsideSum, add_zero]

/-- What was added in front can be taken away. -/
theorem neg_add_cancel_left' {x y : Tensor α} (shapes : x.shape = y.shape) :
    -x + (x + y) = y :=
  neg_add_cancel_of_law neg_add_cancel_left shapes

/-- What was taken away in front can be added again. -/
theorem add_neg_cancel_left' {x y : Tensor α} (shapes : x.shape = y.shape) :
    x + (-x + y) = y := by
  refine eq_of_entries shapes ?_
  intro sample channel row column _
  have sum_shape : x.shape = (-x + y).shape := rfl
  have neg_shape : (-x).shape = y.shape := shapes
  rw [entry_add sum_shape, entry_add neg_shape, entry_neg, add_neg_cancel_left]

end InvertibleNet.Tensor
