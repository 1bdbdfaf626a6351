/-
# Blocks at the edge of the word

The checks of a block guarantee two halves and a residual map of positive width, but not
always that the block can be run. The padding is computed with saturation, so a block of
stride one whose doubled output channels no word holds passes with an odd number of padded
channels, and refuses every pair when it is run. Every other block that passes is sound:
it returns from wherever it goes.
-/

import InvertibleNet.Proofs.Coupling.Domain

namespace InvertibleNet

universe u

open Outcome

namespace BlockSpec

variable {spec : BlockSpec} {multiplier : Nat}

/-! ## What the checks say -/

theorem passes_iff {refused : Prop} [Decidable refused] {fault : BlockFault}
    {rest : Option BlockFault} :
    (if refused then some fault else rest) = none ↔ ¬ refused ∧ rest = none := by
  by_cases holds : refused
  · simp [holds]
  · simp [holds]

/-- The checks of a block, whether or not its stage is too wide. -/
theorem checks_of_fault?_eq_none (valid : spec.fault? multiplier = none) :
    2 ≤ spec.inChannels ∧ spec.bottleneckWidth multiplier ≠ 0 ∧
      ((spec.stride = 1 ∧ spec.inChannels ≤ Count.saturate (2 * spec.outChannels) ∧
          (spec.pad = 0 → spec.inChannels % 2 = 0)) ∨
        (spec.stride = 2 ∧ spec.inChannels % 2 = 0 ∧
          spec.outChannels = 2 * spec.inChannels)) := by
  unfold fault? at valid
  simp only [passes_iff] at valid
  obtain ⟨-, enough, -, wide, rest⟩ := valid
  refine ⟨Nat.not_lt.mp enough, wide, ?_⟩
  split at rest
  · next one =>
    simp only [passes_iff] at rest
    obtain ⟨growing, halved, -⟩ := rest
    refine .inl ⟨one, Nat.not_lt.mp growing, ?_⟩
    intro unpadded
    by_contra odd
    exact halved ⟨by simp [isInjective, unpadded], odd⟩
  · split at rest
    · next two =>
      simp only [passes_iff] at rest
      obtain ⟨even, doubled, -⟩ := rest
      have doubles := Count.checked_eq_some_iff.mp (Decidable.not_not.mp doubled)
      exact .inr ⟨two, Decidable.not_not.mp even, doubles.2.symm⟩
    · cases rest

/-- What a block has to be besides valid to be sound. -/
def HasRoom (spec : BlockSpec) : Prop := spec.stride = 2 ∨ 2 * spec.outChannels < Count.limit

theorem HasRoom.sound (room : spec.HasRoom) (valid : spec.fault? multiplier = none) :
    spec.Sound := by
  rcases room with two | room
  · obtain ⟨pair, -, one | ⟨-, even, doubled⟩⟩ := checks_of_fault?_eq_none valid
    · omega
    · exact sound_of_stride_two pair two even doubled
  · exact sound_of_fault?_eq_none room valid

/-- A valid block without room pads, up to the largest number that a word holds. -/
theorem padded_of_not_hasRoom (valid : spec.fault? multiplier = none) (wide : ¬ spec.HasRoom) :
    0 < spec.pad ∧ spec.inChannels + spec.pad = Count.limit - 1 ∧
      spec.stride = 1 ∧ Count.limit ≤ 2 * spec.outChannels := by
  obtain ⟨other, wide⟩ := not_or.mp wide
  have large : Count.limit ≤ 2 * spec.outChannels := Nat.not_lt.mp wide
  obtain ⟨-, -, ⟨one, growing, halved⟩ | ⟨two, -⟩⟩ := checks_of_fault?_eq_none valid
  · have saturated : Count.saturate (2 * spec.outChannels) = Count.limit - 1 :=
      Nat.min_eq_right (by omega)
    rw [saturated] at growing
    have padding : spec.pad = Count.limit - 1 - spec.inChannels := by
      rw [pad, if_pos one, saturated]
    -- The largest word is odd, so an unpadded block would not have passed.
    have odd : (Count.limit - 1) % 2 = 1 := by decide
    refine ⟨?_, by omega, one, large⟩
    by_contra unpadded
    have even := halved (by omega)
    omega
  · exact absurd two other

theorem halves_iff_hasRoom (valid : spec.fault? multiplier = none) :
    spec.inChannels + spec.pad = 2 * spec.halfChannels ↔ spec.HasRoom := by
  refine ⟨?_, fun room => (room.sound valid).halves⟩
  intro halves
  by_contra wide
  obtain ⟨-, padded, -⟩ := padded_of_not_hasRoom valid wide
  have odd : (Count.limit - 1) % 2 = 1 := by decide
  omega

theorem area_iff_hasRoom (valid : spec.fault? multiplier = none) :
    spec.halfChannels * spec.stride ^ 2 = spec.outChannels ↔ spec.HasRoom := by
  apply Iff.intro
  · intro area
    by_contra wide
    obtain ⟨-, padded, one, large⟩ := padded_of_not_hasRoom valid wide
    rw [one, one_pow, Nat.mul_one, halfChannels, padded] at area
    have odd : (Count.limit - 1) % 2 = 1 := by decide
    omega
  · intro room
    rw [Nat.pow_two, Nat.mul_comm]
    exact (room.sound valid).area

/-- A sound block takes some pair. -/
theorem Sound.exists_takesPair (sound : spec.Sound) :
    ∃ first second : Shape, first.IsFull ∧ second.IsFull ∧ spec.TakesPair first second := by
  have pair := sound.pair
  have stride_pos := sound.stride_pos
  have halved := sound.halves
  refine ⟨⟨1, spec.inChannels / 2, spec.stride, spec.stride⟩,
    ⟨1, spec.inChannels - spec.inChannels / 2, spec.stride, spec.stride⟩,
    ⟨Nat.one_pos, Nat.div_pos pair Nat.two_pos, stride_pos, stride_pos⟩,
    ⟨Nat.one_pos, Nat.sub_pos_of_lt (Nat.div_lt_self (by omega) Nat.one_lt_two), stride_pos,
      stride_pos⟩,
    Nat.add_sub_cancel' (Nat.div_le_self _ 2), rfl, rfl, rfl, Nat.dvd_refl _, Nat.dvd_refl _, ?_⟩
  rcases Nat.eq_zero_or_pos spec.pad with unpadded | pads
  · exact .inr (by show spec.inChannels - spec.inChannels / 2 = spec.inChannels / 2; omega)
  · exact .inl pads

end BlockSpec

namespace Coupling

variable {α : Type u} [Zero α] [Add α] {block : Coupling α} {pair : Pair α}

/-- A sound block returns from wherever it goes. -/
theorem returns_of_takesPair [Neg α] (sound : block.spec.Sound) (shaped : block.IsShaped)
    (full : pair.1.shape.IsFull) (takes : block.spec.TakesPair pair.1.shape pair.2.shape) :
    ∃ moved back, block.forward pair = .ok moved ∧ block.inverse moved = .ok back := by
  have steps := forward_of_takesPair sound shaped full takes
  obtain ⟨first_shape, second_shape⟩ := shape_forward sound shaped full takes steps
  have moved_full : (block.spec.movedShape pair.1.shape).IsFull :=
    (takes_of_takesPair sound full takes).full_moved
  have back := inverse_of_shapes sound shaped (first_shape ▸ moved_full)
    (first_shape.trans second_shape.symm) (by rw [first_shape]; rfl)
  exact ⟨_, _, steps, back.1⟩

/-- A block whose padded channels are odd refuses every pair. -/
theorem forward_refuses_of_odd (pads : 0 < block.spec.pad)
    (odd : (block.spec.inChannels + block.spec.pad) % 2 ≠ 0) (pair : Pair α) :
    ∃ cause, block.forward pair = .error (.shape cause) := by
  unfold forward
  split
  · exact ⟨_, rfl⟩
  · next channels =>
    have sum := Decidable.not_not.mp channels
    have stuck : ∀ halves, block.grow pair ≠ .ok halves := by
      intro halves grows
      unfold grow at grows
      rw [if_pos pads] at grows
      obtain ⟨merged, joins, cuts⟩ := bind_eq_ok_iff.mp grows
      obtain ⟨-, rfl⟩ := Pair.merge_eq_ok_iff.mp joins
      have even := (Tensor.split_eq_ok_iff.mp cuts).1.2
      rw [Tensor.shape_padChannels, Tensor.shape_append] at even
      exact odd (sum ▸ even)
    obtain ⟨cause, refused⟩ := (shapeOnly_grow block pair).exists_cause stuck
    exact ⟨cause, by rw [refused]; rfl⟩

end Coupling

/-- What the checks of a block are worth. A block that passes them can be cut, and its
residual map has a width between one and the output channels. The halves of the padded
input are equal, and a rearranged half is as wide as the residual, exactly if the block
has room; then it returns from wherever it goes, and without room it goes nowhere. -/
theorem BlockSpec.halves_of_validate {spec : BlockSpec} {multiplier : Nat}
    (valid : spec.validate multiplier = .ok ()) :
    (1 ≤ spec.inChannels / 2 ∧ spec.inChannels / 2 < spec.inChannels) ∧
      (1 ≤ spec.bottleneckWidth multiplier ∧
        spec.bottleneckWidth multiplier ≤ spec.outChannels) ∧
      (spec.inChannels + spec.pad = 2 * spec.halfChannels ↔
        spec.stride = 2 ∨ 2 * spec.outChannels < Count.limit) ∧
      (spec.halfChannels * spec.stride ^ 2 = spec.outChannels ↔
        spec.stride = 2 ∨ 2 * spec.outChannels < Count.limit) ∧
      ((spec.stride = 2 ∨ 2 * spec.outChannels < Count.limit) →
        ∃ first second : Shape, first.IsFull ∧ second.IsFull ∧ spec.TakesPair first second) ∧
      ∀ {β : Type u} [Zero β] [Add β] [Neg β] (block : Coupling β), block.spec = spec →
        block.IsShaped → ∀ pair : Pair β,
          ((spec.stride = 2 ∨ 2 * spec.outChannels < Count.limit) →
            pair.1.shape.IsFull → spec.TakesPair pair.1.shape pair.2.shape →
              ∃ moved back, block.forward pair = .ok moved ∧ block.inverse moved = .ok back) ∧
          (¬ (spec.stride = 2 ∨ 2 * spec.outChannels < Count.limit) →
            ∃ cause, block.forward pair = .error (.shape cause)) := by
  have passed := NetworkConfig.validate_eq_ok_iff.mp valid
  obtain ⟨enough, wide, -⟩ := BlockSpec.checks_of_fault?_eq_none passed
  refine ⟨⟨Nat.div_pos enough Nat.two_pos, Nat.div_lt_self (by omega) Nat.one_lt_two⟩,
    ⟨Nat.pos_of_ne_zero wide, ?_⟩, halves_iff_hasRoom passed, area_iff_hasRoom passed, ?_, ?_⟩
  · unfold bottleneckWidth
    split
    · exact Nat.zero_le _
    · exact Nat.div_le_self _ _
  · intro room
    exact (HasRoom.sound room passed).exists_takesPair
  · intro β _ _ _ block same shaped pair
    subst same
    refine ⟨?_, ?_⟩
    · intro room full takes
      exact Coupling.returns_of_takesPair (HasRoom.sound room passed) shaped full takes
    · intro crowded
      obtain ⟨pads, padded, -, -⟩ := padded_of_not_hasRoom passed crowded
      exact Coupling.forward_refuses_of_odd pads (by rw [padded]; decide) pair

/-- A block of stride two that doubles four channels has matching halves. -/
theorem BlockSpec.halves_of_validate_downsampling :
    (BlockSpec.mk 0 4 8 2 false).validate 4 = .ok () ∧
      4 + (BlockSpec.mk 0 4 8 2 false).pad =
        2 * (BlockSpec.mk 0 4 8 2 false).halfChannels ∧
      (BlockSpec.mk 0 4 8 2 false).halfChannels * 2 ^ 2 = 8 ∧
      ∃ moved back, (Coupling.ofOnes ⟨0, 4, 8, 2, false⟩).forward
          (.ofFn ⟨1, 2, 2, 2⟩ fun _ _ row _ => row, .ofFn ⟨1, 2, 2, 2⟩ fun _ _ _ column => column) =
            .ok moved ∧
        (Coupling.ofOnes ⟨0, 4, 8, 2, false⟩).inverse moved = .ok back := by
  have valid : (BlockSpec.mk 0 4 8 2 false).validate 4 = .ok () := rfl
  obtain ⟨-, -, halves, area, -, runs⟩ := BlockSpec.halves_of_validate valid
  have takes : BlockSpec.TakesPair ⟨0, 4, 8, 2, false⟩ ⟨1, 2, 2, 2⟩ ⟨1, 2, 2, 2⟩ :=
    ⟨rfl, rfl, rfl, rfl, by decide, by decide, by decide⟩
  refine ⟨valid, halves.mpr (.inl rfl), area.mpr (.inl rfl), ?_⟩
  exact (runs (Coupling.ofOnes _) rfl (Coupling.isShapedThroughout_ofOnes _).isShaped _).1
    (.inl rfl) (by decide) takes

/-- A block of stride one whose doubled output channels are the first number that no word
holds passes its checks, and neither of its halves matches anything. -/
theorem BlockSpec.halves_differ_saturated :
    (BlockSpec.mk 0 4 0x8000000000000000 1 true).validate 4 = .ok () ∧
      4 + (BlockSpec.mk 0 4 0x8000000000000000 1 true).pad ≠
        2 * (BlockSpec.mk 0 4 0x8000000000000000 1 true).halfChannels ∧
      (BlockSpec.mk 0 4 0x8000000000000000 1 true).halfChannels * 1 ^ 2 ≠ 0x8000000000000000 := by
  refine ⟨rfl, ?_, ?_⟩
  · decide
  · decide

end InvertibleNet
