/-
# How far a way back is off

At every place of a trace the way back can be measured against the way there. Both
treat every sample alone, so what commutes with a selection step by step commutes
with it along the whole trace, and the samples in front of a batch are nowhere
further off than all of them.
-/

import InvertibleNet.Proofs.Coupling.Selection
import InvertibleNet.Proofs.Coupling.Trace
import InvertibleNet.Proofs.Tensor.Distance

namespace InvertibleNet.Branch

universe u

variable {α : Type u} {blocks : List (Coupling α)} {shape other : Shape} {batch : Nat}
  {selection : Selection batch}

/-- No shape along a trace has an empty axis, and none loses a sample. -/
theorem full_along (runs : Runs blocks shape) (full : shape.IsFull) :
    ∀ along ∈ blocks.scanl (fun state block => block.spec.output state) shape,
      along.IsFull ∧ along.batch = shape.batch := by
  induction blocks generalizing shape with
  | nil =>
      intro along member
      cases List.mem_singleton.mp member
      exact ⟨full, rfl⟩
  | cons block blocks ih =>
      rw [List.scanl_cons, List.forall_mem_cons]
      exact ⟨⟨full, rfl⟩, ih runs.tail runs.head.1.full_output⟩

variable [Zero α] [Add α]

theorem select_advances (runs : Runs blocks shape)
    (samplewise : ∀ block ∈ blocks, block.IsSamplewise) (samples : shape.batch = batch)
    {x : Tensor α} (input : x.shape = shape) :
    (advances blocks x).map (·.select selection) = advances blocks (x.select selection) := by
  induction blocks generalizing shape x with
  | nil => rfl
  | cons block blocks ih =>
      obtain ⟨takes, shaped⟩ := runs.head
      obtain ⟨here, rest⟩ := List.forall_mem_cons.mp samplewise
      rw [advances, advances, List.scanl_cons, List.scanl_cons, List.map_cons,
        ← Coupling.select_advance takes shaped here samples input]
      exact congrArg _ (ih runs.tail rest samples (Coupling.shape_advance takes shaped input))

variable [Neg α]

/-- Undoing blocks commutes with a selection of some samples. -/
theorem select_retreatAll (runs : Runs blocks shape) (narrow : Runs blocks other)
    (samplewise : ∀ block ∈ blocks, block.IsSamplewise) (samples : shape.batch = batch)
    (some : 0 < selection.count) {y : Tensor α} (features : y.shape = output blocks shape)
    (selected : (y.select selection).shape = output blocks other) :
    (retreatAll blocks y).select selection = retreatAll blocks (y.select selection) := by
  have wide := runInverse_select runs samplewise samples features
    fun none => absurd none (Nat.ne_of_gt some)
  have halves : ((retreatAll blocks y).select selection).cut =
      (retreatAll blocks (y.select selection)).cut :=
    Except.ok.inj (wide.symm.trans (runInverse_cut narrow selected))
  have merged := congrArg Pair.merge halves
  rw [Tensor.merge_cut, Tensor.merge_cut] at merged
  exact Except.ok.inj merged

theorem select_retreats (runs : Runs blocks shape) (narrow : Runs blocks other)
    (samplewise : ∀ block ∈ blocks, block.IsSamplewise) (samples : shape.batch = batch)
    (some : 0 < selection.count) {y : Tensor α} (features : y.shape = output blocks shape)
    (selected : (y.select selection).shape = output blocks other) :
    (retreats blocks y).map (·.select selection) = retreats blocks (y.select selection) := by
  induction blocks generalizing shape other with
  | nil => rfl
  | cons block blocks ih =>
      obtain ⟨-, rest⟩ := List.forall_mem_cons.mp samplewise
      rw [retreats_cons, retreats_cons, List.map_cons,
        select_retreatAll runs narrow samplewise samples some features selected,
        ih runs.tail narrow.tail rest samples features selected]

/-! ## Distances along a trace -/

/-- How far the way back from `y` is off the way there from `x`, place by place. -/
def drift (blocks : List (Coupling Single)) (x y : Tensor Single) : List Single :=
  List.zipWith Tensor.distance (advances blocks x) (retreats blocks y)

theorem isMagnitude_distances {states others : List (Tensor Single)}
    (shapes : states.map (·.shape) = others.map (·.shape))
    (full : ∀ shape ∈ states.map (·.shape), shape.IsFull) :
    ∀ figure ∈ List.zipWith Tensor.distance states others, figure.IsMagnitude := by
  induction states generalizing others with
  | nil => exact fun _ member => absurd member List.not_mem_nil
  | cons state states ih =>
      cases others with
      | nil => exact fun _ member => absurd member List.not_mem_nil
      | cons other others =>
          obtain ⟨here, rest⟩ := List.cons.inj shapes
          obtain ⟨whole, later⟩ := List.forall_mem_cons.mp full
          exact List.forall_mem_cons.mpr ⟨Tensor.isMagnitude_distance here whole, ih rest later⟩

/-- Of two lists of tensors of the same shapes, the samples in front are no further
apart than all samples, place by place. -/
theorem distances_select_first {front behind : Nat} (some : 0 < front)
    {states others : List (Tensor Single)} (shapes : states.map (·.shape) = others.map (·.shape))
    (full : ∀ shape ∈ states.map (·.shape), shape.IsFull ∧ shape.batch = front + behind) :
    List.Forall₂ Single.NoLarger
      (List.zipWith Tensor.distance (states.map (·.select (.first front behind)))
        (others.map (·.select (.first front behind))))
      (List.zipWith Tensor.distance states others) := by
  induction states generalizing others with
  | nil => exact .nil
  | cons state states ih =>
      cases others with
      | nil => exact .nil
      | cons other others =>
          obtain ⟨here, rest⟩ := List.cons.inj shapes
          obtain ⟨⟨whole, samples⟩, later⟩ := List.forall_mem_cons.mp full
          exact .cons (Tensor.distance_select_first here whole some samples) (ih rest later)

end InvertibleNet.Branch
