/-
# Padding and dropping channels

Padding appends zero channels and dropping takes them off again, so padding is a section of
dropping. Its image is known: the tensors whose last channels are zero in every sample. A tensor
that was padded may be cut in two before the zeros are dropped, wherever the zeros begin, in the
second half or already in the first: merged, dropped and cut again it is the tensor that was
padded, cut in the middle.

The one thing that stands in the way of padding is memory. A result whose extents run past
the largest array is not made.
-/

import InvertibleNet.Proofs.Tensor.Joining

namespace InvertibleNet.Tensor

universe u

open Outcome

variable {α : Type u} [Zero α]

/-! ## When there is a result -/

variable {x y : Tensor α} {pad : Nat}

theorem pad_eq_ok_iff : x.pad pad = .ok y ↔ x.HasRoomFor pad ∧ y = x.padChannels pad := by
  unfold Tensor.pad HasRoomFor
  split
  · next room =>
    rw [Except.ok.injEq, and_iff_right room, eq_comm]
  · next crowded =>
    exact iff_of_false (fun made => by cases made) fun made => crowded made.1

theorem unpadChannels_eq_ok_iff :
    y.unpadChannels pad = .ok x ↔
      (pad = 0 ∨ pad < y.shape.channels) ∧ x = y.channelRange 0 (y.shape.channels - pad) := by
  by_cases enough : pad < y.shape.channels
  · rw [unpadChannels_eq_range enough, Except.ok.injEq, and_iff_right (.inr enough), eq_comm]
  · unfold unpadChannels
    split
    · next none =>
      rw [none, Nat.sub_zero, channelRange_all, Except.ok.injEq, and_iff_right (.inl rfl), eq_comm]
    · next some =>
      rw [if_pos (Nat.le_of_not_lt enough)]
      simp [some, enough]

theorem shapeOnly_unpadChannels (x : Tensor α) (pad : Nat) : ShapeOnly (x.unpadChannels pad) := by
  unfold unpadChannels
  split
  · exact ShapeOnly.ok _
  · split
    · exact ShapeOnly.shape _
    · exact ShapeOnly.ok _

/-! ## One behind the other -/

/-- What was padded is dropped again. -/
theorem unpadChannels_of_pad {padded : Tensor α} (some : 0 < x.shape.channels)
    (pads : x.pad pad = .ok padded) : padded.unpadChannels pad = .ok x := by
  obtain ⟨-, rfl⟩ := pad_eq_ok_iff.mp pads
  have width : (x.padChannels pad).shape.channels = x.shape.channels + pad := by
    rw [shape_padChannels]
  refine unpadChannels_eq_ok_iff.mpr ⟨by omega, ?_⟩
  rw [width, Nat.add_sub_cancel, channelRange_padChannels]

/-- Padding gives back what was dropped exactly if it was zero. -/
theorem pad_of_unpadChannels_iff (addressable : y.shape.isAddressable = true)
    (drops : y.unpadChannels pad = .ok x) :
    x.pad pad = .ok y ↔ y.VanishesFrom (y.shape.channels - pad) := by
  obtain ⟨enough, rfl⟩ := unpadChannels_eq_ok_iff.mp drops
  have bound : pad ≤ y.shape.channels := by omega
  have room : (y.channelRange 0 (y.shape.channels - pad)).HasRoomFor pad := by
    right
    rw [shape_channelRange]
    simpa only [Nat.sub_add_cancel bound] using addressable
  rw [pad_eq_ok_iff, and_iff_right room, eq_comm, padChannels_channelRange_iff y bound]

/-- A padded tensor that was split into halves and merged is dropped and split like the tensor
itself. -/
theorem resplit_of_pad {padded : Tensor α} (some : 0 < pad) (two : 2 ≤ x.shape.channels)
    (even : (x.shape.channels + pad) % 2 = 0) (pads : x.pad pad = .ok padded) :
    (do
      let halves ← padded.split
      let merged ← halves.1.merge halves.2
      let dropped ← merged.unpadChannels pad
      dropped.splitAt (x.shape.channels / 2)) = x.splitAt (x.shape.channels / 2) := by
  have drops := unpadChannels_of_pad (by omega) pads
  obtain ⟨room, rfl⟩ := pad_eq_ok_iff.mp pads
  have width : (x.padChannels pad).shape.channels = x.shape.channels + pad := by
    rw [shape_padChannels]
  have halves : (x.padChannels pad).split = .ok (x.padChannels pad).cut :=
    split_eq_cut (by omega) (by omega)
  -- What was padded can exist, so its halves are merged to it again.
  have addressable : (x.padChannels pad).shape.isAddressable = true := by
    rw [shape_padChannels]
    exact (hasRoomFor_iff some).mp room
  have joins : (x.padChannels pad).cut.1.merge (x.padChannels pad).cut.2 =
      .ok (x.padChannels pad) := merge_of_splitAt addressable (splitAt_half (by omega))
  simp only [halves, joins, drops, bind, Except.bind]

/-- Padding is a section of dropping with a known image. A tensor is padded exactly if the
result can exist, and what was padded is dropped again. Dropping has a result exactly if
channels are left or none are dropped, and refuses everything else for its shape; padding
gives the dropped tensor back exactly if its last channels vanish in every sample. And a
padded tensor that was split into halves, however few of its own channels the first one
holds, merges, drops and splits as the tensor that was padded. -/
theorem padding_is_section :
    (∀ (x : Tensor α) (pad : Nat), 0 < x.shape.channels →
      ((∃ padded, x.pad pad = .ok padded) ↔ x.HasRoomFor pad) ∧
        ∀ padded, x.pad pad = .ok padded → padded.unpadChannels pad = .ok x) ∧
      (∀ (y : Tensor α) (pad : Nat),
        ((∃ x, y.unpadChannels pad = .ok x) ↔ pad = 0 ∨ pad < y.shape.channels) ∧
          ShapeOnly (y.unpadChannels pad) ∧
          ∀ x, y.unpadChannels pad = .ok x → y.shape.isAddressable = true →
            (x.pad pad = .ok y ↔ y.VanishesFrom (y.shape.channels - pad))) ∧
      ∀ (x : Tensor α) (pad : Nat) (padded : Tensor α), 0 < pad →
        (x.shape.channels + pad) % 2 = 0 → 2 ≤ x.shape.channels → x.pad pad = .ok padded →
          (∃ parts, x.splitAt (x.shape.channels / 2) = .ok parts) ∧
            (do
              let halves ← padded.split
              let merged ← halves.1.merge halves.2
              let dropped ← merged.unpadChannels pad
              dropped.splitAt (x.shape.channels / 2)) = x.splitAt (x.shape.channels / 2) := by
  refine ⟨fun x pad some => ⟨?_, fun _ => unpadChannels_of_pad some⟩, fun y pad =>
    ⟨?_, shapeOnly_unpadChannels y pad, fun x drops addressable =>
      pad_of_unpadChannels_iff addressable drops⟩, ?_⟩
  · simp only [pad_eq_ok_iff, exists_and_left, exists_eq, and_true]
  · simp only [unpadChannels_eq_ok_iff, exists_and_left, exists_eq, and_true]
  · intro x pad padded some even two pads
    exact ⟨⟨_, splitAt_half two⟩, resplit_of_pad some two even pads⟩

/-- Two samples with three channels that are padded by five: the zeros begin inside the first
half. Without the zeros the tensor is not one that padding gives. -/
theorem padding_is_section_odd :
    ∃ x padded : Tensor Single, x.shape = ⟨2, 3, 1, 2⟩ ∧ padded.shape = ⟨2, 8, 1, 2⟩ ∧
      x.pad 5 = .ok padded ∧ padded.unpadChannels 5 = .ok x ∧ padded.VanishesFrom 3 ∧
      (∃ dropped, x.unpadChannels 2 = .ok dropped ∧ dropped.pad 2 ≠ .ok x) ∧
      (do
        let halves ← padded.split
        let merged ← halves.1.merge halves.2
        let dropped ← merged.unpadChannels 5
        dropped.splitAt 1) = x.splitAt 1 := by
  let x : Tensor Single := ofFn ⟨2, 3, 1, 2⟩ fun _ _ _ _ => .one
  obtain ⟨pads, drops, resplits⟩ := @padding_is_section Single _
  obtain ⟨room, back⟩ := pads x 5 (by decide)
  obtain ⟨padded, made⟩ := room.mpr (by decide)
  have shape : padded.shape = ⟨2, 8, 1, 2⟩ := by
    obtain ⟨-, rfl⟩ := pad_eq_ok_iff.mp made
    exact shape_padChannels x 5
  have dropped := back padded made
  have vanishes := ((drops padded 5).2.2 x dropped (by rw [shape]; decide)).mp made
  rw [shape] at vanishes
  obtain ⟨fewer, taken⟩ := (drops x 2).1.mpr (by decide)
  obtain ⟨-, again⟩ := resplits x 5 padded (by decide) (by decide) (by decide) made
  have half : x.shape.channels / 2 = 1 := by decide
  rw [half] at again
  refine ⟨x, padded, rfl, shape, made, dropped, vanishes, ⟨fewer, taken, fun again => ?_⟩,
    again⟩
  have zero := ((drops x 2).2.2 fewer taken (by decide)).mp again 0 1 0 0 (by decide)
  exact absurd zero (by decide)

/-- A batch without samples, of one channel and one pixel. -/
def noSamples : Tensor Single := ofFn ⟨0, 1, 1, 1⟩ fun _ _ _ _ => 0

/-- More channels than an array can have are not appended, not even to a batch without samples,
so there is nothing that dropping could give back. -/
theorem padding_overflows :
    0 < noSamples.shape.channels ∧
      noSamples.pad 0x8000000000000000 = .error (.breakdown .overflow) ∧
      (do
        let padded ← noSamples.pad 0x8000000000000000
        padded.unpadChannels 0x8000000000000000) ≠ .ok noSamples := by
  have crowded : noSamples.pad 0x8000000000000000 = .error (.breakdown .overflow) :=
    if_neg (by decide)
  refine ⟨by decide, crowded, fun back => ?_⟩
  rw [crowded] at back
  cases back

end InvertibleNet.Tensor
