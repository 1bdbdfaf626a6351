/-
# Domains of a block

Which pairs a block steps from, and which it steps back from. The guards of a step are
scattered: the sum of the channels, the merge, the width of the half for the residual map,
the rearrangements, and the shapes that are added. Together they let through the pairs
that `TakesPair` describes, and on the way back two halves of one shape, as wide as the
block puts them out. Whatever else there is without an empty axis is refused for its
shape. In front of a convolution and of a sum stands a guard on every path, so neither
ever finds anything that it was not made for.
-/

import InvertibleNet.Proofs.Coupling.Recovery
import InvertibleNet.Proofs.Tensor.Padding
import InvertibleNet.Proofs.Tensor.Refusal

namespace InvertibleNet

universe u

open Outcome

variable {α : Type u}

/-! ## The residual map -/

namespace Coupling

variable {block : Coupling α}

theorem IsShapedThroughout.isShaped (shaped : block.IsShapedThroughout) : block.IsShaped :=
  fun half full channels => shaped half full.hasPixels channels

theorem shapeOnly_update {half : Tensor α} (pixels : half.shape.hasPixels = true) :
    ShapeOnly (block.update half) := by
  rw [update, if_pos pixels]
  exact ShapeOnly.ok _

/-- Whether two residual maps agree on the halves that a block asks its own about. -/
def AgreeOnHalves (spec : BlockSpec) (f g : Tensor α → Tensor α) : Prop :=
  ∀ half : Tensor α, half.shape.hasPixels = true → half.shape.channels = spec.halfChannels →
    f half = g half

variable {spec : BlockSpec} {f g : Tensor α → Tensor α}

theorem AgreeOnHalves.update_eq (agree : AgreeOnHalves spec f g) {half : Tensor α}
    (channels : half.shape.channels = spec.halfChannels) :
    (Coupling.mk spec f).update half = (Coupling.mk spec g).update half := by
  unfold update
  split
  · next pixels => exact congrArg Except.ok (agree half pixels channels)
  · rfl

variable [Zero α] [Add α]

/-- Forward, a block asks its residual map about halves that are made for it only. -/
theorem AgreeOnHalves.forward_eq (agree : AgreeOnHalves spec f g) (pair : Pair α) :
    (Coupling.mk spec f).forward pair = (Coupling.mk spec g).forward pair := by
  have coupled : ∀ halves : Pair α,
      (Coupling.mk spec f).couple halves = (Coupling.mk spec g).couple halves := by
    intro halves
    unfold couple
    by_cases channels : halves.2.shape.channels = spec.halfChannels
    · rw [agree.update_eq channels]
      rfl
    · simp only [ne_eq, channels, not_false_eq_true, if_true]
      rfl
  unfold forward
  simp only [coupled]
  rfl

/-- On the way back it asks about no others either. -/
theorem AgreeOnHalves.inverse_eq [Neg α] (agree : AgreeOnHalves spec f g) (pair : Pair α) :
    (Coupling.mk spec f).inverse pair = (Coupling.mk spec g).inverse pair := by
  have uncoupled : (Coupling.mk spec f).uncouple pair = (Coupling.mk spec g).uncouple pair := by
    unfold uncouple
    refine congrArg _ (funext fun second => ?_)
    by_cases channels : second.shape.channels = spec.halfChannels
    · rw [agree.update_eq channels]
      rfl
    · simp only [ne_eq, channels, not_false_eq_true, if_true]
      rfl
  unfold inverse
  rw [uncoupled]
  rfl

end Coupling

/-- A residual map that fits its block takes every half with pixels. -/
theorem Bottleneck.run_of_fits {bottleneck : Bottleneck} {spec : BlockSpec}
    (fits : bottleneck.fits spec = true) {half : Tensor Single}
    (pixels : half.shape.hasPixels = true) (channels : half.shape.channels = spec.halfChannels) :
    bottleneck.run spec.stride half = .ok (bottleneck.apply spec.stride half) := by
  have width : bottleneck.enter.inChannels = spec.halfChannels := by
    have accepted := ((Bool.and_eq_true _ _).mp fits).1
    simp only [accepts, Bool.and_eq_true, decide_eq_true_eq] at accepted
    exact accepted.1.1.1.1.2
  rw [run, if_neg (by rw [width, channels]; simp), if_pos pixels]

/-! ## Refusals of the parts -/

variable [Zero α]

theorem Psi.shapeOnly_forward (psi : Psi) {x : Tensor α} (full : x.shape.IsFull) :
    ShapeOnly (psi.forward x) := by
  rcases Psi.forward_cases psi full with ⟨-, ran⟩ | ⟨-, refused⟩
  · rw [ran]
    exact ShapeOnly.ok _
  · rw [refused]
    exact ShapeOnly.shape _

theorem Psi.shapeOnly_inverse {psi : Psi} {x : Tensor α} (full : x.shape.IsFull)
    (area_lt : psi.block * psi.block < Count.limit) : ShapeOnly (psi.inverse x) := by
  rcases Psi.inverse_cases full area_lt with ⟨-, ran⟩ | ⟨-, refused⟩
  · rw [ran]
    exact ShapeOnly.ok _
  · rw [refused]
    exact ShapeOnly.shape _

/-! ## Shapes of pairs -/

namespace BlockSpec

/-- Whether a block takes a pair of halves: together they have its channels, they lie
side by side, the stride divides height and width, and where nothing is padded the second
one is the half for the residual map. -/
structure TakesPair (spec : BlockSpec) (first second : Shape) : Prop where
  channels : first.channels + second.channels = spec.inChannels
  batch : first.batch = second.batch
  height : first.height = second.height
  width : first.width = second.width
  height_dvd : spec.stride ∣ first.height
  width_dvd : spec.stride ∣ first.width
  half : 0 < spec.pad ∨ second.channels = spec.inChannels / 2

/-- The shape in front of a block, both halves together, that leads to halves of a
shape. -/
def sourceShape (spec : BlockSpec) (moved : Shape) : Shape :=
  ⟨moved.batch, spec.inChannels, moved.height * spec.stride, moved.width * spec.stride⟩

variable {spec : BlockSpec} {moved : Shape}

theorem stride_eq_one_of_pad (pads : 0 < spec.pad) : spec.stride = 1 := by
  by_contra other
  rw [pad, if_neg other] at pads
  exact Nat.lt_irrefl 0 pads

theorem Sound.takes_sourceShape (sound : spec.Sound) (full : moved.IsFull) :
    spec.Takes (spec.sourceShape moved) where
  sound := sound
  channels := rfl
  full := by
    obtain ⟨batch_pos, -, height_pos, width_pos⟩ := full
    exact ⟨batch_pos, Nat.lt_of_lt_of_le Nat.two_pos sound.pair,
      Nat.mul_pos height_pos sound.stride_pos, Nat.mul_pos width_pos sound.stride_pos⟩
  height := Nat.dvd_mul_left _ _
  width := Nat.dvd_mul_left _ _

theorem Sound.movedShape_sourceShape (sound : spec.Sound)
    (channels : moved.channels = spec.outChannels) :
    spec.movedShape (spec.sourceShape moved) = moved := by
  simp only [movedShape, sourceShape, Nat.mul_div_cancel _ sound.stride_pos, ← channels]

end BlockSpec

namespace Coupling

variable {block : Coupling α} {pair halves : Pair α}

/-! ## Forward -/

/-- The merge of two halves that lie side by side is taken if they have the channels of
the block and the stride divides height and width. -/
theorem takes_append (sound : block.spec.Sound) (full : pair.1.shape.IsFull)
    (sum : pair.1.shape.channels + pair.2.shape.channels = block.spec.inChannels)
    (height : block.spec.stride ∣ pair.1.shape.height)
    (width : block.spec.stride ∣ pair.1.shape.width) :
    block.spec.Takes (pair.1.append pair.2).shape :=
  ⟨sound, sum, ⟨full.1, Nat.add_pos_left full.2.1 _, full.2.2⟩, height, width⟩

theorem takes_of_takesPair (sound : block.spec.Sound) (full : pair.1.shape.IsFull)
    (takes : block.spec.TakesPair pair.1.shape pair.2.shape) :
    block.spec.Takes (pair.1.append pair.2).shape :=
  takes_append sound full takes.channels takes.height_dvd takes.width_dvd

/-- A step does not see where a pair was cut, as long as it takes the pair. -/
theorem forward_eq_forward_cut [Add α] (sound : block.spec.Sound)
    (takes : block.spec.TakesPair pair.1.shape pair.2.shape) :
    block.forward pair = block.forward (pair.1.append pair.2).cut := by
  have aligned : pair.1.Aligned pair.2 := ⟨takes.batch, takes.height, takes.width⟩
  have sum : (pair.1.append pair.2).shape.channels = block.spec.inChannels := takes.channels
  have cut_sum : (pair.1.append pair.2).cut.1.shape.channels +
      (pair.1.append pair.2).cut.2.shape.channels = block.spec.inChannels := by
    rw [Tensor.channels_cut, sum]
  have grown : block.grow pair = block.grow (pair.1.append pair.2).cut := by
    unfold grow
    split
    · rw [Tensor.merge_cut, Pair.merge_eq_ok_iff.mpr ⟨aligned, rfl⟩]
    · next unpadded =>
      have half := takes.half.resolve_left unpadded
      have halved := sound.halves
      have sums := takes.channels
      have middle : (pair.1.shape.channels + pair.2.shape.channels) / 2 =
          pair.1.shape.channels := by omega
      rw [Tensor.cut_append aligned middle]
  simp only [forward, takes.channels, cut_sum, grown, ne_eq, not_true_eq_false, if_false]

theorem forward_of_takesPair [Add α] (sound : block.spec.Sound) (shaped : block.IsShaped)
    (full : pair.1.shape.IsFull) (takes : block.spec.TakesPair pair.1.shape pair.2.shape) :
    block.forward pair = .ok (block.advance (pair.1.append pair.2)).cut := by
  rw [forward_eq_forward_cut sound takes]
  exact forward_cut (takes_of_takesPair sound full takes) shaped rfl

/-- Both results of a step have the shape that the schedule promises. -/
theorem shape_forward [Add α] (sound : block.spec.Sound) (shaped : block.IsShaped)
    (full : pair.1.shape.IsFull) (takes : block.spec.TakesPair pair.1.shape pair.2.shape)
    {moved : Pair α} (steps : block.forward pair = .ok moved) :
    moved.1.shape = block.spec.movedShape pair.1.shape ∧
      moved.2.shape = block.spec.movedShape pair.1.shape := by
  rw [forward_of_takesPair sound shaped full takes] at steps
  cases steps
  exact shape_cut_output (shape_advance (takes_of_takesPair sound full takes) shaped rfl)

/-- The halves of a full pair are full. -/
theorem GrowsInto.full (grows : block.GrowsInto pair halves) (sound : block.spec.Sound)
    (first_full : pair.1.shape.IsFull) (second_full : pair.2.shape.IsFull)
    (sum : pair.1.shape.channels + pair.2.shape.channels = block.spec.inChannels) :
    halves.1.shape.IsFull ∧ halves.2.shape.IsFull := by
  unfold GrowsInto at grows
  split at grows
  · next pads =>
    obtain ⟨merged, joins, rfl⟩ := grows
    obtain ⟨-, rfl⟩ := Pair.merge_eq_ok_iff.mp joins
    -- Only a block of stride one pads, and one divides everything.
    have one := BlockSpec.stride_eq_one_of_pad pads
    have takes := takes_append sound first_full sum (one ▸ Nat.one_dvd _) (one ▸ Nat.one_dvd _)
    obtain ⟨first_shape, second_shape⟩ :=
      shape_cut_padded takes (shape_padChannels_takes takes rfl)
    rw [first_shape, second_shape]
    exact ⟨takes.full_half, takes.full_half⟩
  · cases grows
    exact ⟨first_full, second_full⟩

/-- Two halves that are coupled have one shape. -/
theorem Couples.shape_eq [Add α] {rearranged : Tensor α} {moved : Pair α}
    (couples : block.Couples halves rearranged moved) (sound : block.spec.Sound)
    (shaped : block.IsShapedThroughout) (full : halves.1.shape.IsFull) :
    halves.1.shape = halves.2.shape := by
  obtain ⟨second_divides, second_gathered⟩ := couples.second_moved sound
  obtain ⟨first_divides, first_gathered, -⟩ :=
    Psi.eq_of_forward sound.stride_pos full.2.1 full.hasPixels couples.first
  have first_moved : rearranged.shape = block.psi.gathered halves.1.shape := by
    rw [first_gathered]
    exact Psi.shape_gather sound.stride_pos _
  have second_moved : moved.1.shape = block.psi.gathered halves.2.shape := by
    rw [second_gathered]
    exact Psi.shape_gather sound.stride_pos _
  calc halves.1.shape
      = block.psi.spread (block.psi.gathered halves.1.shape) :=
        (Psi.spread_gathered first_divides).symm
    _ = block.psi.spread (block.psi.gathered halves.2.shape) := by
        rw [← first_moved, ← second_moved, ← couples.shapes, couples.shape_residual sound shaped]
    _ = halves.2.shape := Psi.spread_gathered second_divides

theorem takesPair_of_forward [Add α] (sound : block.spec.Sound)
    (shaped : block.IsShapedThroughout) (full : pair.1.shape.IsFull) {moved : Pair α}
    (steps : block.forward pair = .ok moved) :
    block.spec.TakesPair pair.1.shape pair.2.shape := by
  obtain ⟨sum, halves, rearranged, grows, couples⟩ := forward_eq_ok steps
  obtain ⟨⟨-, height_dvd, width_dvd⟩, -⟩ := couples.second_moved sound
  unfold GrowsInto at grows
  split at grows
  · next pads =>
    obtain ⟨merged, joins, rfl⟩ := grows
    obtain ⟨⟨batch, height, width⟩, rfl⟩ := Pair.merge_eq_ok_iff.mp joins
    have one := BlockSpec.stride_eq_one_of_pad pads
    exact ⟨sum, batch, height, width, one ▸ Nat.one_dvd _, one ▸ Nat.one_dvd _, .inl pads⟩
  · next unpadded =>
    cases grows
    have same := couples.shape_eq sound shaped full
    have halved := sound.halves
    have half := couples.channels
    rw [← same] at height_dvd width_dvd
    exact ⟨sum, congrArg Shape.batch same, congrArg Shape.height same, congrArg Shape.width same,
      height_dvd, width_dvd, .inr (by omega)⟩

theorem shapeOnly_grow (block : Coupling α) (pair : Pair α) : ShapeOnly (block.grow pair) := by
  unfold grow
  split
  · exact ShapeOnly.bind (Pair.shapeOnly_merge pair) fun _ _ => Tensor.shapeOnly_split _
  · exact ShapeOnly.ok _

theorem shapeOnly_couple [Add α] (first_full : halves.1.shape.IsFull)
    (second_full : halves.2.shape.IsFull) : ShapeOnly (block.couple halves) := by
  unfold couple
  split
  · exact ShapeOnly.shape _
  · apply ShapeOnly.bind (Psi.shapeOnly_forward _ first_full)
    intro firstMoved _
    apply ShapeOnly.bind (Psi.shapeOnly_forward _ second_full)
    intro secondMoved _
    apply ShapeOnly.bind (shapeOnly_update second_full.hasPixels)
    intro updated _
    split
    · exact ShapeOnly.shape _
    · exact ShapeOnly.ok _

theorem shapeOnly_forward [Add α] (sound : block.spec.Sound) (first_full : pair.1.shape.IsFull)
    (second_full : pair.2.shape.IsFull) : ShapeOnly (block.forward pair) := by
  unfold forward
  split
  · exact ShapeOnly.shape _
  · next channels =>
    apply ShapeOnly.bind (shapeOnly_grow block pair)
    intro halves grows
    obtain ⟨first, second⟩ := (growsInto_of_grow grows).full sound first_full second_full
      (Decidable.not_not.mp channels)
    exact shapeOnly_couple first second

/-! ## Back -/

theorem shapeOnly_shrink (block : Coupling α) (halves : Pair α) :
    ShapeOnly (block.shrink halves) := by
  unfold shrink
  split
  · apply ShapeOnly.bind (Pair.shapeOnly_merge halves)
    intro merged _
    exact ShapeOnly.bind (Tensor.shapeOnly_unpadChannels merged _) fun _ _ =>
      Tensor.shapeOnly_splitAt _ _
  · exact ShapeOnly.ok _

/-- The rearrangement on the way back leaves no image without pixels. -/
theorem hasPixels_of_inverse (sound : block.spec.Sound) {x second : Tensor α}
    (full : x.shape.IsFull) (moves : block.psi.inverse x = .ok second) :
    second.shape.hasPixels = true := by
  have area_lt : block.psi.block * block.psi.block < Count.limit := sound.area_lt
  rcases Psi.inverse_cases full area_lt with ⟨-, ran⟩ | ⟨-, refused⟩
  · rw [ran] at moves
    cases moves
    rw [Psi.shape_scatter sound.stride_pos]
    exact Psi.hasPixels_spread sound.stride_pos full.hasPixels
  · rw [refused] at moves
    cases moves

section Back

variable [Add α] [Neg α]

theorem inverse_of_shapes (sound : block.spec.Sound) (shaped : block.IsShaped)
    (full : pair.1.shape.IsFull) (same : pair.1.shape = pair.2.shape)
    (channels : pair.1.shape.channels = block.spec.outChannels) :
    block.inverse pair = .ok (block.retreat (pair.1.append pair.2)).cut ∧
      (block.retreat (pair.1.append pair.2)).shape = block.spec.sourceShape pair.1.shape := by
  have takes := sound.takes_sourceShape full
  have output : (pair.1.append pair.2).shape =
      block.spec.output (block.spec.sourceShape pair.1.shape) := by
    have moved := sound.movedShape_sourceShape channels
    rw [Tensor.shape_append, ← same]
    nth_rewrite 1 [← moved]
    rw [channels, ← Nat.two_mul]
    rfl
  have cuts : (pair.1.append pair.2).cut = pair :=
    Tensor.cut_append (by simp only [Tensor.Aligned, same, and_self]) (by rw [same]; omega)
  refine ⟨?_, shape_retreat takes shaped output⟩
  have back := inverse_cut takes shaped output
  rwa [cuts] at back

theorem shapes_of_inverse (sound : block.spec.Sound) (shaped : block.IsShaped)
    (full : pair.1.shape.IsFull) {back : Pair α} (steps : block.inverse pair = .ok back) :
    pair.1.shape = pair.2.shape ∧ pair.1.shape.channels = block.spec.outChannels := by
  have channels : pair.1.shape.channels = block.spec.outChannels := by
    by_contra other
    obtain ⟨cause, refused⟩ := inverse_refuses sound full other
    rw [refused] at steps
    cases steps
  obtain ⟨second, moves, -, -, residual_shape⟩ := exists_of_inverse steps
  have area_dvd : block.psi.block * block.psi.block ∣ pair.1.shape.channels :=
    channels ▸ sound.area_dvd
  rw [Psi.inverse_eq_scatter full sound.area_lt area_dvd] at moves
  cases moves
  have takes := sound.takes_sourceShape full
  have moved := sound.movedShape_sourceShape channels
  have half := shape_scatter_moved takes moved.symm
  have updated := shape_residual shaped takes half
  exact ⟨moved.symm.trans (updated.symm.trans residual_shape), channels⟩

theorem shapeOnly_inverse (sound : block.spec.Sound) (first_full : pair.1.shape.IsFull)
    (second_full : pair.2.shape.IsFull) : ShapeOnly (block.inverse pair) := by
  apply ShapeOnly.bind
  · apply ShapeOnly.bind (Psi.shapeOnly_inverse first_full sound.area_lt)
    intro second moves
    split
    · exact ShapeOnly.shape _
    · apply ShapeOnly.bind (shapeOnly_update (hasPixels_of_inverse sound first_full moves))
      intro updated _
      dsimp only
      split
      · exact ShapeOnly.shape _
      · next shapes =>
        -- The sum has the shape of the second half, which is full.
        have sum_full : (-updated + pair.2).shape.IsFull := by
          rw [Tensor.shape_add, Decidable.not_not.mp shapes]
          exact second_full
        exact ShapeOnly.bind (Psi.shapeOnly_inverse sum_full sound.area_lt) fun _ _ =>
          ShapeOnly.ok _
  · intro halves _
    exact shapeOnly_shrink block halves

end Back

end Coupling

/-! ## Blocks -/

/-- What an accepted block steps from, and what it steps back from, in any arithmetic. A
pair without an empty axis is either one of these, and then the shapes of the results are
known, or it is refused for its shape. The residual map is only asked about halves that
its convolutions take, and whatever is added to its result has the same shape. -/
theorem Block.exact_domains {spec : BlockSpec} {rate : Double} {multiplier : Nat}
    (accepted : Block.check spec rate multiplier = .ok ())
    (room : 2 * spec.outChannels < Count.limit) :
    (∀ bottleneck : Bottleneck, bottleneck.fits spec = true →
        (Block.mk spec bottleneck).coupling.IsShapedThroughout ∧
          ∀ half : Tensor Single, half.shape.hasPixels = true →
            half.shape.channels = spec.halfChannels →
              bottleneck.run spec.stride half =
                .ok ((Block.mk spec bottleneck).coupling.residual half)) ∧
      ∀ {β : Type u} [Zero β] [Add β] [Neg β] (block : Coupling β), block.spec = spec →
        block.IsShapedThroughout → ∀ pair : Pair β, pair.1.shape.IsFull → pair.2.shape.IsFull →
          (((∃ moved, block.forward pair = .ok moved) ↔
              spec.TakesPair pair.1.shape pair.2.shape) ∧
            (∀ moved, block.forward pair = .ok moved →
              moved.1.shape = spec.movedShape pair.1.shape ∧
              moved.2.shape = spec.movedShape pair.1.shape ∧
              ∃ u v a : Tensor β, block.GrowsInto pair (u, v) ∧ block.psi.forward u = .ok a ∧
                (block.residual v).shape = a.shape ∧ moved.2 = block.residual v + a) ∧
            (∀ fault, block.forward pair = .error fault → fault.isShape = true)) ∧
          (((∃ back, block.inverse pair = .ok back) ↔
              pair.1.shape = pair.2.shape ∧ pair.1.shape.channels = spec.outChannels) ∧
            (∀ back, block.inverse pair = .ok back →
              back.1.shape = ⟨pair.1.shape.batch, spec.inChannels / 2,
                pair.1.shape.height * spec.stride, pair.1.shape.width * spec.stride⟩ ∧
              back.2.shape = ⟨pair.1.shape.batch, spec.inChannels - spec.inChannels / 2,
                pair.1.shape.height * spec.stride, pair.1.shape.width * spec.stride⟩ ∧
              ∃ v : Tensor β, block.psi.inverse pair.1 = .ok v ∧
                (-block.residual v).shape = pair.2.shape) ∧
            (∀ fault, block.inverse pair = .error fault → fault.isShape = true)) ∧
          ∀ other : Tensor β → Tensor β, Coupling.AgreeOnHalves spec other block.residual →
            (Coupling.mk spec other).forward pair = block.forward pair ∧
              (Coupling.mk spec other).inverse pair = block.inverse pair := by
  have sound := BlockSpec.sound_of_fault?_eq_none room (NetworkConfig.check_eq_ok_iff.mp accepted).1
  refine ⟨?_, ?_⟩
  · intro bottleneck fits
    refine ⟨Block.isShapedThroughout_coupling fits, ?_⟩
    intro half pixels channels
    exact Bottleneck.run_of_fits fits pixels channels
  intro β _ _ _ block same shaped pair first_full second_full
  subst same
  refine ⟨⟨⟨?_, ?_⟩, ?_, ?_⟩, ⟨⟨?_, ?_⟩, ?_, ?_⟩, ?_⟩
  · rintro ⟨moved, steps⟩
    exact Coupling.takesPair_of_forward sound shaped first_full steps
  · intro takes
    exact ⟨_, Coupling.forward_of_takesPair sound shaped.isShaped first_full takes⟩
  · intro moved steps
    have takes := Coupling.takesPair_of_forward sound shaped first_full steps
    obtain ⟨first_shape, second_shape⟩ :=
      Coupling.shape_forward sound shaped.isShaped first_full takes steps
    obtain ⟨-, halves, rearranged, grows, couples⟩ := Coupling.forward_eq_ok steps
    exact ⟨first_shape, second_shape, halves.1, halves.2, rearranged, grows, couples.first,
      couples.shapes, couples.sum⟩
  · exact Coupling.shapeOnly_forward sound first_full second_full
  · rintro ⟨back, steps⟩
    exact Coupling.shapes_of_inverse sound shaped.isShaped first_full steps
  · rintro ⟨shapes, channels⟩
    exact ⟨_, (Coupling.inverse_of_shapes sound shaped.isShaped first_full shapes channels).1⟩
  · intro back steps
    obtain ⟨shapes, channels⟩ := Coupling.shapes_of_inverse sound shaped.isShaped first_full steps
    obtain ⟨reached, source⟩ :=
      Coupling.inverse_of_shapes sound shaped.isShaped first_full shapes channels
    obtain ⟨second, moves, -, -, residual_shape⟩ := Coupling.exists_of_inverse steps
    cases reached.symm.trans steps
    simp only [Tensor.cut, Tensor.shape_channelRange, source]
    exact ⟨rfl, rfl, second, moves, residual_shape⟩
  · exact Coupling.shapeOnly_inverse sound first_full second_full
  · intro other agree
    exact ⟨agree.forward_eq pair, agree.inverse_eq pair⟩

/-- A block that pads takes a pair of one and three channels, and has none to step back
from. -/
theorem Block.exact_domains_offCentre :
    Block.check ⟨0, 4, 4, 1, false⟩ .zero 2 = .ok () ∧
      (∃ moved, (Coupling.ofOnes ⟨0, 4, 4, 1, false⟩).forward .offCentre = .ok moved ∧
        moved.2.shape = ⟨1, 4, 1, 1⟩) ∧
      ∃ fault, (Coupling.ofOnes ⟨0, 4, 4, 1, false⟩).inverse .offCentre = .error fault ∧
        fault.isShape = true := by
  have accepted : Block.check ⟨0, 4, 4, 1, false⟩ .zero 2 = .ok () := rfl
  obtain ⟨⟨ahead, shapes, -⟩, ⟨behind, -, refused⟩, -⟩ :=
    (Block.exact_domains accepted (by decide)).2 (Coupling.ofOnes _) rfl
      (Coupling.isShapedThroughout_ofOnes _) .offCentre (by decide) (by decide)
  have takes : BlockSpec.TakesPair ⟨0, 4, 4, 1, false⟩ ⟨1, 1, 1, 1⟩ ⟨1, 3, 1, 1⟩ :=
    ⟨rfl, rfl, rfl, rfl, by decide, by decide, by decide⟩
  obtain ⟨moved, steps⟩ := ahead.mpr takes
  refine ⟨accepted, ⟨moved, steps, (shapes moved steps).2.1⟩, ?_⟩
  cases back : (Coupling.ofOnes ⟨0, 4, 4, 1, false⟩).inverse .offCentre with
  | ok halves => exact absurd (behind.mp ⟨halves, back⟩).1 (by decide)
  | error fault => exact ⟨fault, rfl, refused fault back⟩

end InvertibleNet
