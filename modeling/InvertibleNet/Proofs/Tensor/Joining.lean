/-
# Splitting and merging

When a tensor can be split and when two tensors can be merged, and what the one does to the
results of the other. A split point has to lie strictly between the ends of the channels, two
tensors have to agree on the other three axes, and where both steps are possible they undo each
other, at every split point and for every batch. What is refused is refused for its shape.

As with padding, the one other thing that matters is memory. Two tensors that agree are not
merged if their channels together run past the largest array.
-/

import InvertibleNet.Proofs.Outcome
import InvertibleNet.Proofs.Tensor.Halves

namespace InvertibleNet

universe u

open Outcome

variable {α : Type u} [Zero α]

/-! ## Merging -/

theorem Tensor.mergeChannels_eq_ok_iff {x y merged : Tensor α} :
    x.mergeChannels y = .ok merged ↔ x.Aligned y ∧ merged = x.append y := by
  unfold mergeChannels Aligned
  split
  · next aligned =>
    rw [Except.ok.injEq, and_iff_right aligned, eq_comm]
  · next misaligned =>
    simp [misaligned]

theorem Tensor.shapeOnly_mergeChannels (x y : Tensor α) : ShapeOnly (x.mergeChannels y) := by
  unfold mergeChannels
  split
  · exact ShapeOnly.ok _
  · exact ShapeOnly.shape _

theorem Pair.merge_eq_ok_iff {pair : Pair α} {merged : Tensor α} :
    pair.merge = .ok merged ↔ pair.1.Aligned pair.2 ∧ merged = pair.1.append pair.2 :=
  Tensor.mergeChannels_eq_ok_iff

theorem Pair.shapeOnly_merge (pair : Pair α) : ShapeOnly pair.merge :=
  Tensor.shapeOnly_mergeChannels pair.1 pair.2

namespace Tensor

/-- Whether a tensor with further channels can exist. -/
def HasRoomFor (x : Tensor α) (pad : Nat) : Prop :=
  pad = 0 ∨ { x.shape with channels := x.shape.channels + pad }.isAddressable = true

instance (x : Tensor α) (pad : Nat) : Decidable (x.HasRoomFor pad) :=
  inferInstanceAs (Decidable (_ ∨ _))

omit [Zero α] in
theorem hasRoomFor_iff {x : Tensor α} {pad : Nat} (some : 0 < pad) :
    x.HasRoomFor pad ↔
      { x.shape with channels := x.shape.channels + pad }.isAddressable = true :=
  or_iff_right (Nat.ne_of_gt some)

theorem merge_eq_ok_iff {x y merged : Tensor α} :
    x.merge y = .ok merged ↔
      (x.Aligned y ∧ (x.append y).shape.isAddressable = true) ∧ merged = x.append y := by
  unfold merge
  rw [bind_eq_ok_iff]
  apply Iff.intro
  · rintro ⟨joined, joins, fits⟩
    obtain ⟨aligned, rfl⟩ := mergeChannels_eq_ok_iff.mp joins
    split at fits
    · next room =>
      cases fits
      exact ⟨⟨aligned, room⟩, rfl⟩
    · cases fits
  · rintro ⟨⟨aligned, room⟩, rfl⟩
    exact ⟨_, mergeChannels_eq_ok_iff.mpr ⟨aligned, rfl⟩, if_pos room⟩

/-- What would be too large is not merged. -/
theorem merge_of_crowded {x y : Tensor α} (aligned : x.Aligned y)
    (crowded : ¬ (x.append y).shape.isAddressable = true) :
    x.merge y = .error (.breakdown .overflow) := by
  have joins := mergeChannels_eq_ok_iff.mpr ⟨aligned, rfl⟩
  simp only [merge, joins, bind, Except.bind, if_neg crowded]
  rfl

theorem shapeOnly_merge {x y : Tensor α}
    (room : x.Aligned y → (x.append y).shape.isAddressable = true) : ShapeOnly (x.merge y) := by
  unfold merge
  apply ShapeOnly.bind (shapeOnly_mergeChannels x y)
  intro joined joins
  obtain ⟨aligned, rfl⟩ := mergeChannels_eq_ok_iff.mp joins
  rw [if_pos (room aligned)]
  exact ShapeOnly.ok _

/-! ## Splitting -/

theorem splitAt_eq_ok_iff {x : Tensor α} {point : Nat} {parts : Pair α} :
    x.splitAt point = .ok parts ↔ (0 < point ∧ point < x.shape.channels) ∧
      parts = (x.channelRange 0 point, x.channelRange point (x.shape.channels - point)) := by
  by_cases inside : 0 < point ∧ point < x.shape.channels
  · rw [splitAt, if_neg (by omega), Except.ok.injEq, and_iff_right inside, eq_comm]
  · rw [splitAt, if_pos (by omega)]
    simp [inside]

theorem shapeOnly_splitAt (x : Tensor α) (point : Nat) : ShapeOnly (x.splitAt point) := by
  unfold splitAt
  split
  · exact ShapeOnly.shape _
  · exact ShapeOnly.ok _

theorem split_eq_ok_iff {x : Tensor α} {halves : Pair α} :
    x.split = .ok halves ↔
      (x.shape.channels ≠ 0 ∧ x.shape.channels % 2 = 0) ∧ halves = x.cut := by
  by_cases even : x.shape.channels ≠ 0 ∧ x.shape.channels % 2 = 0
  · rw [split_eq_cut even.1 even.2, Except.ok.injEq, and_iff_right even, eq_comm]
  · have refused : x.shape.channels = 0 ∨ x.shape.channels % 2 ≠ 0 := by omega
    rw [split, if_pos refused]
    simp [even]

theorem shapeOnly_split (x : Tensor α) : ShapeOnly x.split := by
  unfold split
  split
  · exact ShapeOnly.shape _
  · exact shapeOnly_splitAt x _

/-! ## One behind the other -/

/-- The parts of a tensor merge to it again. -/
theorem merge_of_splitAt {x first second : Tensor α} {point : Nat}
    (addressable : x.shape.isAddressable = true) (splits : x.splitAt point = .ok (first, second)) :
    first.merge second = .ok x := by
  obtain ⟨inside, parts⟩ := splitAt_eq_ok_iff.mp splits
  cases parts
  have joined := append_channelRange x (Nat.le_of_lt inside.2)
  refine merge_eq_ok_iff.mpr ⟨⟨⟨rfl, rfl, rfl⟩, ?_⟩, joined.symm⟩
  rwa [joined]

/-- What was merged is split again behind the channels of the first tensor. -/
theorem splitAt_of_merge {x y merged : Tensor α} (first : 0 < x.shape.channels)
    (second : 0 < y.shape.channels) (merges : x.merge y = .ok merged) :
    merged.splitAt x.shape.channels = .ok (x, y) := by
  obtain ⟨⟨aligned, -⟩, rfl⟩ := merge_eq_ok_iff.mp merges
  have width : (x.append y).shape.channels = x.shape.channels + y.shape.channels := rfl
  refine splitAt_eq_ok_iff.mpr ⟨by omega, ?_⟩
  rw [width, Nat.add_sub_cancel_left, channelRange_append_left aligned,
    channelRange_append_right aligned]

/-- The halves of what was merged are the two tensors exactly if these are equally wide. -/
theorem split_of_merge_iff {x y merged : Tensor α} (first : 0 < x.shape.channels)
    (merges : x.merge y = .ok merged) :
    merged.split = .ok (x, y) ↔ x.shape.channels = y.shape.channels := by
  obtain ⟨⟨aligned, -⟩, rfl⟩ := merge_eq_ok_iff.mp merges
  have width : (x.append y).shape.channels = x.shape.channels + y.shape.channels := rfl
  rw [split_eq_ok_iff]
  apply Iff.intro
  · rintro ⟨⟨-, even⟩, halves⟩
    have half : x.shape.channels = (x.append y).shape.channels / 2 :=
      congrArg (·.1.shape.channels) halves
    omega
  · intro equal
    exact ⟨by omega, (cut_append aligned (by omega)).symm⟩

/-- Splitting and merging undo each other. A tensor is split exactly at the points strictly
inside its channels, into as many channels as the point says and the others, and its parts
merge to it if it is one that can exist. Two tensors with channels merge exactly if their
batches, heights and widths agree and there is room for the channels of both; the result splits
into them behind the channels of the first one, and into halves that are them exactly if they
are equally wide. A tensor has halves exactly if its channels are even in number and there are
any. Everything else is refused for its shape. -/
theorem splits_undo_merges :
    (∀ (x : Tensor α) (point : Nat),
      ((∃ parts, x.splitAt point = .ok parts) ↔ 0 < point ∧ point < x.shape.channels) ∧
        (∀ first second, x.splitAt point = .ok (first, second) →
          first.shape = { x.shape with channels := point } ∧
            second.shape = { x.shape with channels := x.shape.channels - point } ∧
            (x.shape.isAddressable = true → first.merge second = .ok x)) ∧
        ShapeOnly (x.splitAt point)) ∧
      (∀ x y : Tensor α, 0 < x.shape.channels → 0 < y.shape.channels →
        ((∃ merged, x.merge y = .ok merged) ↔ (x.shape.batch = y.shape.batch ∧
            x.shape.height = y.shape.height ∧ x.shape.width = y.shape.width) ∧
              x.HasRoomFor y.shape.channels) ∧
          (∀ merged, x.merge y = .ok merged →
            merged.splitAt x.shape.channels = .ok (x, y) ∧
              (merged.split = .ok (x, y) ↔ x.shape.channels = y.shape.channels)) ∧
          ((x.shape.batch = y.shape.batch ∧ x.shape.height = y.shape.height ∧
              x.shape.width = y.shape.width → x.HasRoomFor y.shape.channels) →
            ShapeOnly (x.merge y))) ∧
      ∀ x : Tensor α,
        ((∃ halves, x.split = .ok halves) ↔ x.shape.channels % 2 = 0 ∧ x.shape.channels ≠ 0) ∧
          ShapeOnly x.split := by
  refine ⟨fun x point => ⟨?_, ?_, shapeOnly_splitAt x point⟩, fun x y first second =>
    ⟨?_, ?_, ?_⟩, fun x => ⟨?_, shapeOnly_split x⟩⟩
  · simp only [splitAt_eq_ok_iff, exists_and_left, exists_eq, and_true]
  · intro first second splits
    obtain ⟨-, parts⟩ := splitAt_eq_ok_iff.mp splits
    refine ⟨?_, ?_, fun addressable => merge_of_splitAt addressable splits⟩
    · cases parts
      rfl
    · cases parts
      rfl
  · simp only [merge_eq_ok_iff, exists_and_left, exists_eq, and_true, hasRoomFor_iff second]
    exact Iff.rfl
  · intro merged merges
    exact ⟨splitAt_of_merge first second merges, split_of_merge_iff first merges⟩
  · intro room
    exact shapeOnly_merge fun aligned => (hasRoomFor_iff second).mp (room aligned)
  · simp only [split_eq_ok_iff, exists_and_left, exists_eq, and_true]
    exact and_comm

/-- Two samples with one channel and with two: they merge to three channels, which are split
into them again behind the first channel but have no halves, and whose parts merge to them. -/
theorem splits_undo_merges_uneven :
    ∃ x y merged : Tensor Single, x.shape = ⟨2, 1, 1, 2⟩ ∧ y.shape = ⟨2, 2, 1, 2⟩ ∧
      x.merge y = .ok merged ∧ merged.splitAt 1 = .ok (x, y) ∧
      (∃ first second, merged.splitAt 2 = .ok (first, second) ∧
        first.merge second = .ok merged) ∧
      ∃ fault, merged.split = .error fault ∧ fault.isShape = true := by
  let x : Tensor Single := ofFn ⟨2, 1, 1, 2⟩ fun sample _ _ column =>
    .ofNat (2 * sample + column)
  let y : Tensor Single := ofFn ⟨2, 2, 1, 2⟩ fun sample channel _ column =>
    .ofNat (10 + 4 * sample + 2 * channel + column)
  obtain ⟨splits, merges, halves⟩ := @splits_undo_merges Single _
  obtain ⟨aligned, back, -⟩ := merges x y (by decide) (by decide)
  obtain ⟨merged, joins⟩ := aligned.mpr ⟨⟨rfl, rfl, rfl⟩, by decide⟩
  have shape : merged.shape = ⟨2, 3, 1, 2⟩ := by
    obtain ⟨-, rfl⟩ := merge_eq_ok_iff.mp joins
    rfl
  obtain ⟨inside, rejoins, -⟩ := splits merged 2
  obtain ⟨⟨first, second⟩, cuts⟩ := inside.mpr (by rw [shape]; decide)
  obtain ⟨-, -, again⟩ := rejoins first second cuts
  refine ⟨x, y, merged, rfl, rfl, joins, (back merged joins).1,
    ⟨first, second, cuts, again (by rw [shape]; decide)⟩, ?_⟩
  obtain ⟨even, refused⟩ := halves merged
  cases halved : merged.split with
  | ok parts =>
      have some := even.mp ⟨parts, halved⟩
      rw [shape] at some
      exact absurd some.1 (by decide)
  | error fault => exact ⟨fault, rfl, refused fault halved⟩

/-- A batch without samples, of half as many channels as a signed word can count. -/
def vast : Tensor Single := ofFn ⟨0, 0x4000000000000000, 1, 1⟩ fun _ _ _ _ => 0

/-- Such a batch can exist, and two of them agree on all axes. They are not merged, because the
channels of both are more than an array can have. -/
theorem merging_overflows :
    (vast.shape.isAddressable = true ∧ 0 < vast.shape.channels) ∧
      vast.merge vast = .error (.breakdown .overflow) ∧
      ¬ ((∃ merged, vast.merge vast = .ok merged) ↔ vast.shape.batch = vast.shape.batch ∧
        vast.shape.height = vast.shape.height ∧ vast.shape.width = vast.shape.width) := by
  have crowded : vast.merge vast = .error (.breakdown .overflow) :=
    merge_of_crowded ⟨rfl, rfl, rfl⟩ (by decide)
  refine ⟨by decide, crowded, fun merges => ?_⟩
  obtain ⟨merged, joins⟩ := merges.mpr ⟨rfl, rfl, rfl⟩
  rw [crowded] at joins
  cases joins

end Tensor

end InvertibleNet
