/-
# What one step recovers

A step forward takes any pair that it accepts, however the pair was cut, and a step
back from its result never fails. It recovers the second half as it was, because it
evaluates the residual map where the step forward did, and it recovers the first half
up to what `-f + (f + a)` leaves of the rearranged value `a`. Padding adds that the
pair comes back cut in the middle.

The one exception is an empty batch whose first images have no rows: the rearrangement
of stride two gives it rows, and they stay.
-/

import InvertibleNet.Proofs.Coupling.Batch
import InvertibleNet.Proofs.Network.Plan
import InvertibleNet.Proofs.Network.Weights
import InvertibleNet.Proofs.Tensor.Joining

namespace InvertibleNet

universe u

open Outcome

variable {α : Type u} [Zero α]

namespace Coupling

/-! ## What a step works with -/

/-- Whether the residual map gives every half with pixels a result of the shape that
three convolutions give it, also a half of an empty batch. -/
def IsShapedThroughout (block : Coupling α) : Prop :=
  ∀ half : Tensor α, half.shape.hasPixels = true →
    half.shape.channels = block.spec.halfChannels →
      (block.residual half).shape = block.spec.residualShape half.shape

/-- Whether a pair grows into two halves: those of its padded merge if the block pads,
and the pair itself otherwise. -/
def GrowsInto (block : Coupling α) (pair halves : Pair α) : Prop :=
  if 0 < block.spec.pad then
    ∃ merged, pair.merge = .ok merged ∧ halves = (merged.padChannels block.spec.pad).cut
  else halves = pair

/-- Whether two halves shrink to a pair: the channels that a block takes, cut in the
middle, if the block pads, and the halves themselves otherwise. -/
def ShrinksTo (block : Coupling α) (halves pair : Pair α) : Prop :=
  if 0 < block.spec.pad then
    ∃ merged, halves.merge = .ok merged ∧
      (merged.channelRange 0 block.spec.inChannels).splitAt (block.spec.inChannels / 2) = .ok pair
  else pair = halves

variable {block : Coupling α} {pair halves moved : Pair α}

theorem growsInto_of_grow (grows : block.grow pair = .ok halves) : block.GrowsInto pair halves := by
  unfold grow at grows
  unfold GrowsInto
  split at grows
  · next pads =>
    obtain ⟨merged, joins, cuts⟩ := bind_eq_ok_iff.mp grows
    rw [if_pos pads]
    exact ⟨merged, joins, (Tensor.split_eq_ok_iff.mp cuts).2⟩
  · next unpadded =>
    cases grows
    rw [if_neg unpadded]

/-- The halves of a pair that grows have the width that the residual map takes. -/
theorem GrowsInto.shape_first (grows : block.GrowsInto pair halves) (sound : block.spec.Sound)
    (sum : pair.1.shape.channels + pair.2.shape.channels = block.spec.inChannels)
    (channels : halves.2.shape.channels = block.spec.halfChannels) :
    halves.1.shape.channels = block.spec.halfChannels := by
  have halved := sound.halves
  unfold GrowsInto at grows
  split at grows
  · obtain ⟨merged, joins, rfl⟩ := grows
    obtain ⟨-, rfl⟩ := Pair.merge_eq_ok_iff.mp joins
    have width : ((pair.1.append pair.2).padChannels block.spec.pad).shape.channels =
        2 * block.spec.halfChannels := by
      rw [Tensor.shape_padChannels, Tensor.shape_append, ← halved, ← sum]
    show ((pair.1.append pair.2).padChannels block.spec.pad).shape.channels / 2 = _
    rw [width, Nat.mul_div_cancel_left _ Nat.two_pos]
  · next unpadded =>
    cases grows
    omega

/-- A coupling that succeeds: the second half is one for the residual map, both halves
are rearranged, and residual and rearrangement have one shape. -/
structure Couples [Add α] (block : Coupling α) (halves : Pair α) (rearranged : Tensor α)
    (moved : Pair α) : Prop where
  channels : halves.2.shape.channels = block.spec.halfChannels
  pixels : halves.2.shape.hasPixels = true
  first : block.psi.forward halves.1 = .ok rearranged
  second : block.psi.forward halves.2 = .ok moved.1
  shapes : (block.residual halves.2).shape = rearranged.shape
  sum : moved.2 = block.residual halves.2 + rearranged

theorem exists_couples [Add α] (couples : block.couple halves = .ok moved) :
    ∃ rearranged, block.Couples halves rearranged moved := by
  unfold couple at couples
  split at couples
  · cases couples
  · next channels =>
    obtain ⟨firstMoved, first, rest⟩ := bind_eq_ok_iff.mp couples
    obtain ⟨secondMoved, second, rest⟩ := bind_eq_ok_iff.mp rest
    obtain ⟨updated, updates, rest⟩ := bind_eq_ok_iff.mp rest
    obtain ⟨pixels, rfl⟩ := update_eq_ok_iff.mp updates
    split at rest
    · cases rest
    · next shapes =>
      cases rest
      exact ⟨firstMoved, Decidable.not_not.mp channels, pixels, first, second,
        Decidable.not_not.mp shapes, rfl⟩

theorem forward_eq_ok [Add α] (steps : block.forward pair = .ok moved) :
    pair.1.shape.channels + pair.2.shape.channels = block.spec.inChannels ∧
      ∃ halves rearranged, block.GrowsInto pair halves ∧ block.Couples halves rearranged moved := by
  unfold forward at steps
  split at steps
  · cases steps
  · next channels =>
    obtain ⟨halves, grows, couples⟩ := bind_eq_ok_iff.mp steps
    obtain ⟨rearranged, coupled⟩ := exists_couples couples
    exact ⟨Decidable.not_not.mp channels, halves, rearranged, growsInto_of_grow grows, coupled⟩

/-! ## The way back -/

/-- Shrinking succeeds on two halves of one shape. -/
theorem exists_shrink (sound : block.spec.Sound)
    (channels : halves.2.shape.channels = block.spec.halfChannels)
    (shapes : halves.1.shape = halves.2.shape) :
    ∃ back, block.shrink halves = .ok back ∧ block.ShrinksTo halves back := by
  unfold shrink ShrinksTo
  by_cases pads : 0 < block.spec.pad
  · have aligned : halves.1.Aligned halves.2 := by simp only [Tensor.Aligned, shapes, and_self]
    have joins : halves.merge = .ok (halves.1.append halves.2) :=
      Pair.merge_eq_ok_iff.mpr ⟨aligned, rfl⟩
    have width : (halves.1.append halves.2).shape.channels =
        block.spec.inChannels + block.spec.pad := by
      rw [Tensor.shape_append, sound.halves, shapes, channels, Nat.two_mul]
    have pair := sound.pair
    have dropped : (halves.1.append halves.2).unpadChannels block.spec.pad =
        .ok ((halves.1.append halves.2).channelRange 0 block.spec.inChannels) := by
      rw [Tensor.unpadChannels_eq_range (by omega), width, Nat.add_sub_cancel]
    have cuts : ((halves.1.append halves.2).channelRange 0 block.spec.inChannels).splitAt
        (block.spec.inChannels / 2) =
          .ok ((halves.1.append halves.2).channelRange 0 block.spec.inChannels).cut :=
      Tensor.splitAt_half pair
    simp only [if_pos pads, joins]
    refine ⟨_, ?_, _, rfl, cuts⟩
    show ((halves.1.append halves.2).unpadChannels block.spec.pad >>= fun kept =>
      kept.splitAt (block.spec.inChannels / 2)) = _
    rw [dropped]
    exact cuts
  · simp only [if_neg pads]
    exact ⟨halves, rfl, rfl⟩

section Back

variable [Add α] {rearranged : Tensor α}

/-- What is known of the second half of a coupling. -/
theorem Couples.second_moved (couples : block.Couples halves rearranged moved)
    (sound : block.spec.Sound) :
    block.psi.Divides halves.2.shape ∧ moved.1 = block.psi.gather halves.2 := by
  have channels_pos : 0 < halves.2.shape.channels := by
    rw [couples.channels]
    exact sound.halfChannels_pos
  obtain ⟨divides, gathered, -⟩ :=
    Psi.eq_of_forward sound.stride_pos channels_pos couples.pixels couples.second
  exact ⟨divides, gathered⟩

/-- The residual of the second half has the shape of its rearrangement. -/
theorem Couples.shape_residual (couples : block.Couples halves rearranged moved)
    (sound : block.spec.Sound) (shaped : block.IsShapedThroughout) :
    (block.residual halves.2).shape = moved.1.shape := by
  obtain ⟨⟨stride_pos, height_dvd, width_dvd⟩, gathered⟩ := couples.second_moved sound
  obtain ⟨height_pos, width_pos⟩ := Shape.hasPixels_iff.mp couples.pixels
  have area : block.psi.block * block.psi.block * halves.2.shape.channels =
      block.spec.outChannels := by
    rw [couples.channels]
    exact sound.area
  have height : convolvedExtent block.spec.stride halves.2.shape.height =
      halves.2.shape.height / block.psi.block :=
    convolvedExtent_of_dvd stride_pos height_pos height_dvd
  have width : convolvedExtent block.spec.stride halves.2.shape.width =
      halves.2.shape.width / block.psi.block :=
    convolvedExtent_of_dvd stride_pos width_pos width_dvd
  rw [shaped _ couples.pixels couples.channels, gathered, Psi.shape_gather stride_pos,
    BlockSpec.residualShape, Psi.gathered, height, width, area]

/-- Whatever has the shape of the rearranged second half is taken back to the shape of
the second half. -/
theorem Couples.inverse_eq (couples : block.Couples halves rearranged moved)
    (sound : block.spec.Sound) {y : Tensor α} (shapes : y.shape = moved.1.shape) :
    block.psi.inverse y = .ok (block.psi.scatter y) ∧
      (block.psi.scatter y).shape = halves.2.shape := by
  obtain ⟨divides, gathered⟩ := couples.second_moved sound
  have channels_pos : 0 < halves.2.shape.channels := by
    rw [couples.channels]
    exact sound.halfChannels_pos
  refine ⟨Psi.inverse_of_forward sound.stride_pos sound.area_lt channels_pos couples.pixels
    couples.second shapes, ?_⟩
  rw [Psi.shape_scatter sound.stride_pos, shapes, gathered, Psi.shape_gather sound.stride_pos,
    Psi.spread_gathered divides]

theorem Couples.second_back (couples : block.Couples halves rearranged moved)
    (sound : block.spec.Sound) : block.psi.inverse moved.1 = .ok halves.2 := by
  obtain ⟨divides, gathered⟩ := couples.second_moved sound
  rw [(couples.inverse_eq sound rfl).1, gathered, Psi.scatter_gather divides]

variable [Neg α]

/-- The first half as the way back finds it. -/
def restored (block : Coupling α) (second : Tensor α) (sum : Tensor α) : Tensor α :=
  block.psi.scatter (-block.residual second + sum)

/-- Uncoupling succeeds, with the second half as it was. -/
theorem Couples.uncouple_eq (couples : block.Couples halves rearranged moved)
    (sound : block.spec.Sound) (shaped : block.IsShapedThroughout) :
    block.psi.inverse (-block.residual halves.2 + moved.2) =
        .ok (block.restored halves.2 moved.2) ∧
      (block.restored halves.2 moved.2).shape = halves.2.shape ∧
      block.uncouple moved = .ok (block.restored halves.2 moved.2, halves.2) := by
  have residual_shape : (-block.residual halves.2 + moved.2).shape = moved.1.shape :=
    couples.shape_residual sound shaped
  obtain ⟨first_back, first_shape⟩ := couples.inverse_eq sound residual_shape
  have updates : block.update halves.2 = .ok (block.residual halves.2) := if_pos couples.pixels
  have sum_shape : (block.residual halves.2).shape = moved.2.shape := by
    rw [couples.sum]
    rfl
  refine ⟨first_back, first_shape, ?_⟩
  simp only [uncouple, bind, Except.bind, pure, Except.pure, couples.second_back sound,
    couples.channels, updates, Tensor.shape_neg, sum_shape, first_back, ne_eq, not_true_eq_false,
    if_false]
  rfl

/-! ## Where subtraction undoes addition -/

/-- A half that has rows is recovered, and no other first half is. -/
theorem Couples.restored_eq_iff (law : ∀ f a : α, -f + (f + a) = a)
    (couples : block.Couples halves rearranged moved) (sound : block.spec.Sound)
    (shaped : block.IsShapedThroughout)
    (channels : halves.1.shape.channels = block.spec.halfChannels) :
    block.restored halves.2 moved.2 = halves.1 ↔ 0 < halves.1.shape.height := by
  obtain ⟨-, restored_shape, -⟩ := couples.uncouple_eq sound shaped
  apply Iff.intro
  · intro recovered
    rw [← recovered, restored_shape]
    exact (Shape.hasPixels_iff.mp couples.pixels).1
  · intro rows
    have cancelled : -block.residual halves.2 + moved.2 = rearranged := by
      rw [couples.sum]
      exact Tensor.neg_add_cancel_of_law law couples.shapes
    have rearranged_shape : rearranged.shape = moved.1.shape :=
      couples.shapes.symm.trans (couples.shape_residual sound shaped)
    have reached : rearranged.shape.hasPixels = true := by
      obtain ⟨divides, gathered⟩ := couples.second_moved sound
      rw [rearranged_shape, gathered, Psi.shape_gather sound.stride_pos]
      exact Psi.hasPixels_gathered divides couples.pixels
    have pixels := Psi.hasPixels_of_forward couples.first reached rows
    have channels_pos : 0 < halves.1.shape.channels := by
      rw [channels]
      exact sound.halfChannels_pos
    obtain ⟨divides, gathered, -⟩ :=
      Psi.eq_of_forward sound.stride_pos channels_pos pixels couples.first
    rw [restored, cancelled, gathered, Psi.scatter_gather divides]

/-- A block that pads only takes images with rows, and returns them cut in the middle. -/
theorem Couples.back_of_pad (law : ∀ f a : α, -f + (f + a) = a)
    (couples : block.Couples halves rearranged moved) (sound : block.spec.Sound)
    (shaped : block.IsShapedThroughout) (pads : 0 < block.spec.pad)
    (sum : pair.1.shape.channels + pair.2.shape.channels = block.spec.inChannels)
    (grows : block.GrowsInto pair halves) {back : Pair α}
    (shrinks : block.ShrinksTo (block.restored halves.2 moved.2, halves.2) back) :
    0 < pair.1.shape.height ∧ pair.1.Aligned pair.2 ∧ back = (pair.1.append pair.2).cut := by
  have width := grows.shape_first sound sum couples.channels
  rw [GrowsInto, if_pos pads] at grows
  rw [ShrinksTo, if_pos pads] at shrinks
  obtain ⟨merged, joins, rfl⟩ := grows
  obtain ⟨aligned, rfl⟩ := Pair.merge_eq_ok_iff.mp joins
  obtain ⟨rejoined, rejoins, cuts⟩ := shrinks
  have rows : 0 < ((pair.1.append pair.2).padChannels block.spec.pad).cut.2.shape.height :=
    (Shape.hasPixels_iff.mp couples.pixels).1
  have same_rows : ((pair.1.append pair.2).padChannels block.spec.pad).shape.height =
      pair.1.shape.height := by
    rw [Tensor.shape_padChannels]
    rfl
  have recovered := (couples.restored_eq_iff law sound shaped width).mpr rows
  rw [recovered] at rejoins
  cases (Tensor.merge_cut _).symm.trans rejoins
  have kept : ((pair.1.append pair.2).padChannels block.spec.pad).channelRange 0
      block.spec.inChannels = pair.1.append pair.2 := by
    rw [← sum]
    exact Tensor.channelRange_padChannels (pair.1.append pair.2) block.spec.pad
  have pair_sum : (pair.1.append pair.2).shape.channels = block.spec.inChannels := sum
  have enough : 2 ≤ (pair.1.append pair.2).shape.channels := pair_sum ▸ sound.pair
  rw [kept, ← pair_sum, Tensor.splitAt_half enough] at cuts
  cases cuts
  exact ⟨same_rows ▸ rows, aligned, rfl⟩

/-- What comes back has the merge of what went in exactly if that had rows, and it is
what went in exactly if that was cut in the middle besides, or nothing was padded. -/
theorem Couples.back_iff (law : ∀ f a : α, -f + (f + a) = a)
    (couples : block.Couples halves rearranged moved) (sound : block.spec.Sound)
    (shaped : block.IsShapedThroughout)
    (sum : pair.1.shape.channels + pair.2.shape.channels = block.spec.inChannels)
    (grows : block.GrowsInto pair halves) {back : Pair α}
    (shrinks : block.ShrinksTo (block.restored halves.2 moved.2, halves.2) back) :
    ((∃ merged, pair.merge = .ok merged ∧ back.merge = .ok merged) ↔
        0 < pair.1.shape.height) ∧
      (back = pair ↔ 0 < pair.1.shape.height ∧
        (block.spec.pad = 0 ∨ pair.1.shape.channels = block.spec.inChannels / 2)) := by
  by_cases pads : 0 < block.spec.pad
  · obtain ⟨rows, aligned, rfl⟩ :=
      couples.back_of_pad law sound shaped pads sum grows shrinks
    have joins := Pair.merge_eq_ok_iff.mpr ⟨aligned, rfl⟩
    refine ⟨iff_of_true ⟨_, joins, Tensor.merge_cut _⟩ rows, ?_⟩
    rw [and_iff_right rows, or_iff_right (Nat.ne_of_gt pads)]
    apply Iff.intro
    · intro same
      have first := congrArg (fun halves => halves.1.shape.channels) same
      rw [← sum]
      exact first.symm
    · intro middle
      exact Tensor.cut_append aligned (by rw [sum, middle])
  · have unpadded := Nat.eq_zero_of_not_pos pads
    have width := grows.shape_first sound sum couples.channels
    rw [GrowsInto, if_neg pads] at grows
    rw [ShrinksTo, if_neg pads] at shrinks
    subst grows shrinks
    obtain ⟨-, restored_shape, -⟩ := couples.uncouple_eq sound shaped
    have recovered := couples.restored_eq_iff law sound shaped width
    refine ⟨?_, ?_⟩
    · apply Iff.intro
      · rintro ⟨merged, joins, -⟩
        obtain ⟨⟨-, same_rows, -⟩, -⟩ := Pair.merge_eq_ok_iff.mp joins
        rw [same_rows]
        exact (Shape.hasPixels_iff.mp couples.pixels).1
      · intro rows
        have first := recovered.mpr rows
        have shapes : halves.1.shape = halves.2.shape := first ▸ restored_shape
        have joins := Pair.merge_eq_ok_iff.mpr
          ⟨show halves.1.Aligned halves.2 by simp only [Tensor.Aligned, shapes, and_self], rfl⟩
        exact ⟨_, joins, by rw [first]; exact joins⟩
    · rw [← recovered, and_iff_left (.inl unpadded)]
      exact ⟨fun same => congrArg Prod.fst same, fun first => Prod.ext first rfl⟩

end Back

end Coupling

/-! ## Blocks -/

/-- A residual map that fits its block has the shapes of its layers, on every half. -/
theorem Block.isShapedThroughout_coupling {block : Block}
    (fits : block.bottleneck.fits block.spec = true) : block.coupling.IsShapedThroughout := by
  intro half _ _
  exact Block.shape_residual_coupling fits half

/-- What an accepted block recovers, in any arithmetic. The step back from the result of
a step forward succeeds, whatever pair the step forward took. It has the second half `v`
as it was, and the first half from `-f + (f + a)`, where `a` is the rearranged first half
and `f` the residual of `v`. Where that is `a`, what comes back has the merge of what
went in unless that had no rows, and is the same pair if it was cut in the middle or
nothing was padded. -/
theorem Block.recovers_pair {spec : BlockSpec} {rate : Double} {multiplier : Nat}
    (accepted : Block.check spec rate multiplier = .ok ())
    (room : 2 * spec.outChannels < Count.limit) :
    (∀ bottleneck : Bottleneck, bottleneck.fits spec = true →
        (Block.mk spec bottleneck).coupling.IsShapedThroughout) ∧
      ∀ {β : Type u} [Zero β] [Add β] [Neg β] (block : Coupling β), block.spec = spec →
        block.IsShapedThroughout → ∀ pair moved : Pair β, block.forward pair = .ok moved →
          ∃ (u v a restored : Tensor β) (back : Pair β),
            block.GrowsInto pair (u, v) ∧
            block.psi.forward u = .ok a ∧
            block.psi.forward v = .ok moved.1 ∧
            moved.2 = block.residual v + a ∧
            block.psi.inverse moved.1 = .ok v ∧
            block.psi.inverse (-block.residual v + moved.2) = .ok restored ∧
            block.inverse moved = .ok back ∧
            block.ShrinksTo (restored, v) back ∧
            ((∀ f a : β, -f + (f + a) = a) →
              ((∃ merged, pair.merge = .ok merged ∧ back.merge = .ok merged) ↔
                0 < pair.1.shape.height) ∧
              (back = pair ↔ 0 < pair.1.shape.height ∧
                (spec.pad = 0 ∨ pair.1.shape.channels = spec.inChannels / 2))) := by
  have sound := BlockSpec.sound_of_fault?_eq_none room (NetworkConfig.check_eq_ok_iff.mp accepted).1
  refine ⟨fun bottleneck fits => Block.isShapedThroughout_coupling fits, ?_⟩
  intro β _ _ _ block same shaped pair moved steps
  subst same
  obtain ⟨sum, ⟨u, v⟩, a, grows, couples⟩ := Coupling.forward_eq_ok steps
  obtain ⟨first_back, restored_shape, uncouples⟩ := couples.uncouple_eq sound shaped
  obtain ⟨back, shrinks, drops⟩ : ∃ back, block.shrink (block.restored v moved.2, v) = .ok back ∧
      block.ShrinksTo (block.restored v moved.2, v) back :=
    Coupling.exists_shrink sound couples.channels restored_shape
  have inverted : block.inverse moved = .ok back := bind_eq_ok_iff.mpr ⟨_, uncouples, shrinks⟩
  exact ⟨u, v, a, _, back, grows, couples.first, couples.second, couples.sum,
    couples.second_back sound, first_back, inverted, drops,
    fun law => couples.back_iff law sound shaped sum grows drops⟩

/-- The coupling of integers whose residual is one everywhere. -/
def Coupling.ofOnes (spec : BlockSpec) : Coupling Int :=
  ⟨spec, fun half => .ofFn (spec.residualShape half.shape) fun _ _ _ _ => 1⟩

theorem Coupling.isShapedThroughout_ofOnes (spec : BlockSpec) :
    (Coupling.ofOnes spec).IsShapedThroughout :=
  fun _ _ _ => rfl

/-- A pair of one pixel and four channels, cut behind the first of them. -/
def Pair.offCentre : Pair Int :=
  (.ofFn ⟨1, 1, 1, 1⟩ fun _ _ _ _ => 5, .ofFn ⟨1, 3, 1, 1⟩ fun _ channel _ _ => channel)

/-- Such a pair comes back from a padding block with its merge, but cut in the middle. -/
theorem Block.recovers_pair_offCentre :
    ∃ moved back, Block.check ⟨0, 4, 4, 1, false⟩ .zero 2 = .ok () ∧
      (Coupling.ofOnes ⟨0, 4, 4, 1, false⟩).forward .offCentre = .ok moved ∧
      (Coupling.ofOnes ⟨0, 4, 4, 1, false⟩).inverse moved = .ok back ∧
      (∃ merged, Pair.offCentre.merge = .ok merged ∧ back.merge = .ok merged) ∧
      back ≠ .offCentre := by
  have accepted : Block.check ⟨0, 4, 4, 1, false⟩ .zero 2 = .ok () := rfl
  obtain ⟨moved, steps⟩ :
      ∃ moved, (Coupling.ofOnes ⟨0, 4, 4, 1, false⟩).forward .offCentre = .ok moved := ⟨_, rfl⟩
  obtain ⟨-, -, -, -, back, -, -, -, -, -, -, inverted, -, lawful⟩ :=
    (Block.recovers_pair accepted (by decide)).2 (Coupling.ofOnes _) rfl
      (Coupling.isShapedThroughout_ofOnes _) _ _ steps
  obtain ⟨merges, same⟩ := lawful Int.neg_add_cancel_left
  exact ⟨moved, back, accepted, steps, inverted, merges.mpr (by decide),
    fun again => absurd (same.mp again) (by decide)⟩

/-- An empty batch of pairs whose first halves have no rows and whose second halves
have four. -/
def Pair.rowless : Pair Int :=
  (.ofFn ⟨0, 2, 0, 2⟩ fun _ _ _ _ => 0, .ofFn ⟨0, 2, 4, 2⟩ fun _ _ _ _ => 0)

/-- A block of stride two takes it, pads nothing and returns first halves of four rows. -/
theorem Block.gains_rows_rowless :
    ∃ moved back, Block.check ⟨0, 4, 8, 2, false⟩ .zero 2 = .ok () ∧
      (Coupling.ofOnes ⟨0, 4, 8, 2, false⟩).spec.pad = 0 ∧
      (Coupling.ofOnes ⟨0, 4, 8, 2, false⟩).forward .rowless = .ok moved ∧
      (Coupling.ofOnes ⟨0, 4, 8, 2, false⟩).inverse moved = .ok back ∧
      (Pair.rowless.1.shape = ⟨0, 2, 0, 2⟩ ∧ back.1.shape = ⟨0, 2, 4, 2⟩) ∧
      back ≠ .rowless := by
  refine ⟨_, _, rfl, rfl, rfl, rfl, ⟨rfl, rfl⟩, ?_⟩
  intro same
  exact absurd (congrArg (fun halves => halves.1.shape.height) same) (by decide)

end InvertibleNet
