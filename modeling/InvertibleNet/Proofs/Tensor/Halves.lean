/-
# Cutting, joining and padding channels

What flows between the blocks of a network is one tensor, cut in the middle of
its channels. The statements below are about tensors as wholes: a cut followed
by a merge gives the tensor back, padding followed by dropping does too, and
dropping followed by padding does exactly if what was dropped is zero. A tensor
with an odd number of channels is cut so that the first half is the smaller one.
-/

import InvertibleNet.Tensor.Channels

namespace InvertibleNet

universe u

variable {α : Type u} [Zero α]

/-- Whether no axis of the shape is empty. -/
def Shape.IsFull (shape : Shape) : Prop :=
  0 < shape.batch ∧ 0 < shape.channels ∧ 0 < shape.height ∧ 0 < shape.width

instance (shape : Shape) : Decidable shape.IsFull := by
  unfold Shape.IsFull
  infer_instance

theorem Shape.IsFull.size_ne_zero {shape : Shape} (full : shape.IsFull) : shape.size ≠ 0 := by
  obtain ⟨batch_pos, channels_pos, height_pos, width_pos⟩ := full
  exact Nat.ne_of_gt (Nat.mul_pos (Nat.mul_pos (Nat.mul_pos batch_pos channels_pos) height_pos)
    width_pos)

theorem Shape.hasPixels_iff {shape : Shape} :
    shape.hasPixels = true ↔ 0 < shape.height ∧ 0 < shape.width := by
  simp [hasPixels]

theorem Shape.IsFull.hasPixels {shape : Shape} (full : shape.IsFull) : shape.hasPixels = true :=
  Shape.hasPixels_iff.mpr full.2.2

namespace Tensor

/-- Whether two tensors agree on every axis but the channels. -/
def Aligned (x y : Tensor α) : Prop :=
  x.shape.batch = y.shape.batch ∧ x.shape.height = y.shape.height ∧ x.shape.width = y.shape.width

/-- Whether all channels from the given one on are zero. -/
def VanishesFrom (x : Tensor α) (start : Nat) : Prop :=
  ∀ sample channel row column, start ≤ channel → x.entry sample channel row column = 0

/-- The two halves of a tensor. -/
def cut (x : Tensor α) : Pair α :=
  (x.channelRange 0 (x.shape.channels / 2),
    x.channelRange (x.shape.channels / 2) (x.shape.channels - x.shape.channels / 2))

/-! ## Entries -/

theorem entry_of_not_contains {x : Tensor α} {sample channel row column : Nat}
    (outside : ¬ x.shape.Contains sample channel row column) :
    x.entry sample channel row column = 0 :=
  if_neg outside

/-- Tensors given by functions that agree inside the shape are one. -/
theorem ofFn_congr {shape : Shape} {f g : Nat → Nat → Nat → Nat → α}
    (agree : ∀ sample channel row column, shape.Contains sample channel row column →
      f sample channel row column = g sample channel row column) : ofFn shape f = ofFn shape g := by
  refine eq_of_entries rfl ?_
  intro sample channel row column inside
  have bounds : shape.Contains sample channel row column := inside
  rw [entry_ofFn, entry_ofFn, if_pos bounds, if_pos bounds, agree _ _ _ _ bounds]

/-- A function is applied to every entry that there is. -/
theorem entry_map {f : α → α} {x : Tensor α} {sample channel row column : Nat}
    (inside : x.shape.Contains sample channel row column) :
    (x.map f).entry sample channel row column = f (x.entry sample channel row column) := by
  have bound := x.size_eq ▸ Shape.offset_lt_size inside
  have insideMap : (x.map f).shape.Contains sample channel row column := inside
  rw [entry, entry, if_pos inside, if_pos insideMap]
  simp [map, Array.getD_eq_getD_getElem?, bound]

/-- Tensors of one shape are combined entry by entry. -/
theorem entry_combine {f : α → α → α} {x y : Tensor α} (shapes : x.shape = y.shape)
    {sample channel row column : Nat} (inside : x.shape.Contains sample channel row column) :
    (x.combine f y).entry sample channel row column =
      f (x.entry sample channel row column) (y.entry sample channel row column) := by
  have bound := Shape.offset_lt_size inside
  have insideOther : y.shape.Contains sample channel row column := shapes ▸ inside
  have insideBoth : (x.combine f y).shape.Contains sample channel row column := inside
  have place_eq : y.shape.offset sample channel row column =
      x.shape.offset sample channel row column := by rw [shapes]
  rw [entry, entry, entry, if_pos inside, if_pos insideOther, if_pos insideBoth, place_eq]
  simp [combine, Array.getD_eq_getD_getElem?, bound]

@[simp] theorem shape_channelRange (x : Tensor α) (start count : Nat) :
    (x.channelRange start count).shape = { x.shape with channels := count } := rfl

@[simp] theorem shape_append (x y : Tensor α) :
    (x.append y).shape = { x.shape with channels := x.shape.channels + y.shape.channels } := rfl

@[simp] theorem shape_padChannels (x : Tensor α) (pad : Nat) :
    (x.padChannels pad).shape = { x.shape with channels := x.shape.channels + pad } := by
  unfold padChannels
  split
  case isTrue none => simp [none]
  case isFalse => rfl

/-- A range of channels reads the tensor it was taken from. -/
theorem entry_channelRange (x : Tensor α) (start count sample channel row column : Nat) :
    (x.channelRange start count).entry sample channel row column =
      if channel < count then x.entry sample (start + channel) row column else 0 := by
  rw [channelRange, entry_ofFn]
  by_cases inside : channel < count
  · rw [if_pos inside]
    split
    · rfl
    · next outside =>
      -- Only the other three indices can be outside, so the original has no entry either.
      refine (entry_of_not_contains fun contains => outside ?_).symm
      exact ⟨contains.1, inside, contains.2.2⟩
  · rw [if_neg inside, if_neg fun contains => inside contains.2.1]

/-- A join reads the first tensor in front and the second behind it. -/
theorem entry_append {x y : Tensor α} (aligned : x.Aligned y)
    (sample channel row column : Nat) :
    (x.append y).entry sample channel row column =
      if channel < x.shape.channels then x.entry sample channel row column
      else y.entry sample (channel - x.shape.channels) row column := by
  rw [append, entry_ofFn]
  obtain ⟨batch_eq, height_eq, width_eq⟩ := aligned
  split
  · rfl
  · next outside =>
    split
    · next front =>
      refine (entry_of_not_contains fun contains => outside ?_).symm
      exact ⟨contains.1, Nat.lt_add_right _ front, contains.2.2⟩
    · next behind =>
      refine (entry_of_not_contains fun contains => outside ?_).symm
      obtain ⟨sample_lt, channel_lt, row_lt, column_lt⟩ := contains
      refine ⟨batch_eq ▸ sample_lt, ?_, height_eq ▸ row_lt, width_eq ▸ column_lt⟩
      show channel < x.shape.channels + y.shape.channels
      omega

/-- Padding does not change what an entry reads, only which entries there are. -/
theorem entry_padChannels (x : Tensor α) (pad sample channel row column : Nat) :
    (x.padChannels pad).entry sample channel row column = x.entry sample channel row column := by
  unfold padChannels
  split
  · rfl
  · have aligned : x.Aligned (ofFn { x.shape with channels := pad } fun _ _ _ _ => 0) :=
      ⟨rfl, rfl, rfl⟩
    rw [entry_append aligned, entry_ofFn]
    split
    · rfl
    · next behind =>
      rw [ite_self]
      exact (entry_of_not_contains fun contains => behind contains.2.1).symm

/-! ## Cutting and joining -/

/-- All channels together are the tensor itself. -/
theorem channelRange_all (x : Tensor α) : x.channelRange 0 x.shape.channels = x := by
  refine eq_of_entries rfl ?_
  intro sample channel row column inside
  have channel_lt : channel < x.shape.channels := inside.2.1
  rw [entry_channelRange, if_pos channel_lt, Nat.zero_add]

/-- Two neighbouring ranges of channels join to the range they cover. -/
theorem append_channelRange (x : Tensor α) {point : Nat} (bound : point ≤ x.shape.channels) :
    (x.channelRange 0 point).append (x.channelRange point (x.shape.channels - point)) = x := by
  have aligned : (x.channelRange 0 point).Aligned
      (x.channelRange point (x.shape.channels - point)) := ⟨rfl, rfl, rfl⟩
  apply eq_of_entries
  · simp [Nat.add_sub_cancel' bound]
  · intro sample channel row column inside
    have front : (x.channelRange 0 point).shape.channels = point := rfl
    have channel_lt : channel < point + (x.shape.channels - point) := inside.2.1
    rw [entry_append aligned, front, entry_channelRange, entry_channelRange]
    split
    · rw [Nat.zero_add]
    · rw [if_pos (by omega), Nat.add_sub_cancel' (by omega)]

/-- The first channels of a join are the first tensor. -/
theorem channelRange_append_left {x y : Tensor α} (aligned : x.Aligned y) :
    (x.append y).channelRange 0 x.shape.channels = x := by
  refine eq_of_entries rfl ?_
  intro sample channel row column inside
  have channel_lt : channel < x.shape.channels := inside.2.1
  rw [entry_channelRange, if_pos channel_lt, entry_append aligned, Nat.zero_add, if_pos channel_lt]

/-- The last channels of a join are the second tensor. -/
theorem channelRange_append_right {x y : Tensor α} (aligned : x.Aligned y) :
    (x.append y).channelRange x.shape.channels y.shape.channels = y := by
  apply eq_of_entries
  · simp [aligned.1, aligned.2.1, aligned.2.2]
  · intro sample channel row column inside
    have channel_lt : channel < y.shape.channels := inside.2.1
    rw [entry_channelRange, if_pos channel_lt, entry_append aligned, if_neg (by omega),
      Nat.add_sub_cancel_left]

theorem channels_cut (x : Tensor α) :
    x.cut.1.shape.channels + x.cut.2.shape.channels = x.shape.channels :=
  Nat.add_sub_cancel' (Nat.div_le_self _ 2)

theorem merge_cut (x : Tensor α) : x.cut.merge = .ok x := by
  have joined : x.cut.1.append x.cut.2 = x := append_channelRange x (Nat.div_le_self _ 2)
  unfold Pair.merge mergeChannels
  rw [if_pos ⟨rfl, rfl, rfl⟩, joined]

/-- Two aligned tensors of which the first is the smaller half are the cut of their join. -/
theorem cut_append {x y : Tensor α} (aligned : x.Aligned y)
    (halves : (x.shape.channels + y.shape.channels) / 2 = x.shape.channels) :
    (x.append y).cut = (x, y) := by
  unfold cut
  simp only [shape_append, halves, Nat.add_sub_cancel_left]
  rw [channelRange_append_left aligned, channelRange_append_right aligned]

theorem splitAt_half {x : Tensor α} (enough : 2 ≤ x.shape.channels) :
    x.splitAt (x.shape.channels / 2) = .ok x.cut := by
  unfold splitAt
  rw [if_neg (by omega)]
  rfl

theorem split_eq_cut {x : Tensor α} (nonempty : x.shape.channels ≠ 0)
    (even : x.shape.channels % 2 = 0) : x.split = .ok x.cut := by
  unfold split
  rw [if_neg (by omega), splitAt_half (by omega)]

/-! ## Padding -/

theorem padChannels_zero (x : Tensor α) : x.padChannels 0 = x := rfl

theorem unpadChannels_eq_range {x : Tensor α} {pad : Nat} (enough : pad < x.shape.channels) :
    x.unpadChannels pad = .ok (x.channelRange 0 (x.shape.channels - pad)) := by
  unfold unpadChannels
  split
  case isTrue none => rw [none, Nat.sub_zero, channelRange_all]
  case isFalse => rw [if_neg (by omega)]

/-- Dropping what padding appended gives the tensor back. -/
theorem channelRange_padChannels (x : Tensor α) (pad : Nat) :
    (x.padChannels pad).channelRange 0 x.shape.channels = x := by
  apply eq_of_entries (by simp)
  intro sample channel row column inside
  have channel_lt : channel < x.shape.channels := inside.2.1
  rw [entry_channelRange, if_pos channel_lt, Nat.zero_add, entry_padChannels]

theorem vanishesFrom_padChannels (x : Tensor α) (pad : Nat) :
    (x.padChannels pad).VanishesFrom x.shape.channels := by
  intro sample channel row column behind
  rw [entry_padChannels]
  exact entry_of_not_contains fun contains => Nat.not_lt.mpr behind contains.2.1

/-- Padding restores what was dropped exactly if only zeros were dropped. -/
theorem padChannels_channelRange_iff (x : Tensor α) {pad : Nat} (enough : pad ≤ x.shape.channels) :
    (x.channelRange 0 (x.shape.channels - pad)).padChannels pad = x ↔
      x.VanishesFrom (x.shape.channels - pad) := by
  apply Iff.intro
  · intro restored
    have vanishes := vanishesFrom_padChannels (x.channelRange 0 (x.shape.channels - pad)) pad
    rw [restored] at vanishes
    exact vanishes
  · intro vanishes
    apply eq_of_entries
    · simp [Nat.sub_add_cancel enough]
    · intro sample channel row column _
      rw [entry_padChannels, entry_channelRange, Nat.zero_add]
      split
      · rfl
      · next behind => exact (vanishes sample channel row column (Nat.not_lt.mp behind)).symm

end Tensor

end InvertibleNet
