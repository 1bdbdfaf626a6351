/-
# Places in a schedule

The widths and the strides of the blocks are written out apart from each other, and
the blocks are numbered last. This module says what stands where. The blocks of a
stage stand behind all blocks of the stages before it, each with the width of the
stage, and only the first of them with its stride. The two lists cannot drift apart:
a stage has as many places in the one as in the other, so the places of a stage start
at the same sum of depths in both.
-/

import Mathlib.Algebra.GroupWithZero.Nat
import Mathlib.Data.List.Chain
import InvertibleNet.Proofs.Schedule.Stages

namespace InvertibleNet.Schedule

open Outcome

variable {channels blocks strides : List Nat} {stage depth width stride block : Nat}

/-- Stage lists that can be written out block by block. -/
structure Listed (channels blocks strides : List Nat) : Prop where
  /-- The lists describe the same stages, and there is one. -/
  lengths : channels.length = blocks.length ∧ blocks.length = strides.length ∧ 1 ≤ blocks.length
  depths : ∀ depth ∈ blocks, 1 ≤ depth
  /-- The merged width of a stage and its double fit a word. -/
  widths : ∀ width ∈ channels, 1 ≤ width ∧ 4 * width < 2 ^ 64
  strides : ∀ stride ∈ strides, stride = 1 ∨ stride = 2

theorem listed_iff : Listed channels blocks strides ↔ stageFault? channels blocks strides = none := by
  rw [stageFault?_eq_none_iff, ← List.length_pos_iff]
  apply Iff.intro
  · intro listed
    rcases listed with ⟨⟨channels_length, strides_length, some_stage⟩, depths, widths, strides⟩
    exact ⟨⟨channels_length, strides_length⟩, some_stage,
      fun depth member => Nat.ne_of_gt (depths depth member), widths, strides⟩
  · intro conditions
    rcases conditions with ⟨⟨channels_length, strides_length⟩, some_stage, depths, widths, strides⟩
    exact ⟨⟨channels_length, strides_length, some_stage⟩,
      fun depth member => Nat.pos_of_ne_zero (depths depth member), widths, strides⟩

theorem Listed.room (listed : Listed channels blocks strides) (member : width ∈ channels) :
    2 * width < Count.limit := by
  have bound : 4 * width < Count.limit := (listed.widths width member).2
  omega

/-! ## Places -/

/-- The place of a block of a stage, behind all blocks of the stages before. -/
def place (blocks : List Nat) (stage block : Nat) : Nat := (blocks.take stage).sum + block

theorem place_zero (blocks : List Nat) (block : Nat) : place blocks 0 block = block := by
  simp [place]

theorem place_cons_succ (depth : Nat) (blocks : List Nat) (stage block : Nat) :
    place (depth :: blocks) (stage + 1) block = depth + place blocks stage block := by
  simp [place, Nat.add_assoc]

/-- Behind the last block of a stage stands the first one of the next stage. -/
theorem place_succ (deep : blocks[stage]? = some depth) (block : Nat) :
    place blocks (stage + 1) block = place blocks stage (depth + block) := by
  simp [place, List.take_add_one, deep, Nat.add_assoc]

/-! ## Widths and strides -/

theorem getElem?_stageStrides (inside : block < depth) :
    (stageStrides depth stride)[block]? = some (if block = 0 then stride else 1) := by
  cases depth with
  | zero => exact absurd inside (Nat.not_lt_zero block)
  | succ rest =>
      cases block with
      | zero => rfl
      | succ later => simp [stageStrides, Nat.lt_of_succ_lt_succ inside]

/-- What stands at the place of a block of a stage. -/
theorem getElem?_zip_flattened (deep : blocks[stage]? = some depth)
    (wide : channels[stage]? = some width) (strode : strides[stage]? = some stride)
    (inside : block < depth) :
    ((flattenedChannels channels blocks).zip (flattenedStrides blocks strides))[
        place blocks stage block]? = some (width, if block = 0 then stride else 1) := by
  induction blocks generalizing channels strides stage with
  | nil => cases deep
  | cons firstDepth blocks ih =>
      cases channels with
      | nil => cases wide
      | cons firstWidth channels =>
          cases strides with
          | nil => cases strode
          | cons firstStride strides =>
              rw [zip_flattened_cons]
              cases stage with
              | zero =>
                  cases deep
                  cases wide
                  cases strode
                  rw [place_zero, List.getElem?_append_left (by simpa using inside)]
                  exact List.getElem?_zip_eq_some.mpr
                    ⟨by simp [inside], getElem?_stageStrides inside⟩
              | succ stage =>
                  rw [place_cons_succ, List.getElem?_append_right (by simp)]
                  simpa using ih deep wide strode

/-- There is a width for every block of every stage. -/
theorem length_flattenedChannels (lengths : channels.length = blocks.length) :
    (flattenedChannels channels blocks).length = blocks.sum := by
  have depths : (channels.zip blocks).map Prod.snd = blocks :=
    List.map_snd_zip (Nat.le_of_eq lengths.symm)
  simp [flattenedChannels, List.length_flatMap, depths]

/-- There is a stride for every block of every stage. -/
theorem length_flattenedStrides (lengths : blocks.length = strides.length) :
    (flattenedStrides blocks strides).length = blocks.sum := by
  have depths : (blocks.zip strides).map Prod.fst = blocks :=
    List.map_fst_zip (Nat.le_of_eq lengths)
  simp [flattenedStrides, List.length_flatMap, depths]

theorem length_zip_flattened (channels_length : channels.length = blocks.length)
    (strides_length : blocks.length = strides.length) :
    ((flattenedChannels channels blocks).zip (flattenedStrides blocks strides)).length =
      blocks.sum := by
  rw [List.length_zip, length_flattenedChannels channels_length,
    length_flattenedStrides strides_length, Nat.min_self]

/-- The strides of the written-out blocks are those they were written out from. -/
theorem map_snd_zip_flattened (channels_length : channels.length = blocks.length)
    (strides_length : blocks.length = strides.length) :
    ((flattenedChannels channels blocks).zip (flattenedStrides blocks strides)).map (·.2) =
      flattenedStrides blocks strides := by
  apply List.map_snd_zip
  exact Nat.le_of_eq
    ((length_flattenedStrides strides_length).trans (length_flattenedChannels channels_length).symm)

/-! ## The chain of blocks -/

/-- The channels in front of a step: twice the width of the step before it, or what
enters the first one. -/
def entering (inChannels : Nat) (steps : List (Nat × Nat)) : Nat → Nat
  | 0 => inChannels
  | before + 1 => 2 * (steps.getD before (0, 0)).1

theorem entering_cons (inChannels : Nat) (step : Nat × Nat) (steps : List (Nat × Nat))
    (place : Nat) :
    entering inChannels (step :: steps) (place + 1) = entering (2 * step.1) steps place := by
  cases place with
  | zero => rfl
  | succ before => rfl

/-- The block at a place of a chain. -/
theorem getElem?_chain (index inChannels : Nat) (steps : List (Nat × Nat)) (place : Nat) :
    (chain index inChannels steps)[place]? = steps[place]?.map fun step =>
      { index := index + place
        inChannels := entering inChannels steps place
        outChannels := step.1
        stride := step.2
        isFirst := index + place = 0 } := by
  induction steps generalizing index inChannels place with
  | nil => rfl
  | cons step steps ih =>
      cases place with
      | zero => rfl
      | succ place =>
          rw [chain, List.getElem?_cons_succ, ih, List.getElem?_cons_succ, entering_cons,
            Nat.add_right_comm, Nat.add_assoc]

/-- A later block of a stage finds twice the channels of its stage. -/
theorem entering_repeated (deep : blocks[stage]? = some depth)
    (wide : channels[stage]? = some width) (strode : strides[stage]? = some stride)
    (inside : block < depth) (inChannels : Nat) :
    entering inChannels ((flattenedChannels channels blocks).zip (flattenedStrides blocks strides))
      (place blocks stage (block + 1)) = 2 * width := by
  rw [show place blocks stage (block + 1) = place blocks stage block + 1 from rfl, entering,
    List.getD_eq_getElem?_getD, getElem?_zip_flattened deep wide strode inside]
  rfl

/-- The first block of a stage finds twice the channels of the stage before it. -/
theorem entering_first (listed : Listed channels blocks strides) (later : stage + 1 < blocks.length)
    (wide : channels[stage]? = some width) (inChannels : Nat) :
    entering inChannels ((flattenedChannels channels blocks).zip (flattenedStrides blocks strides))
      (place blocks (stage + 1) 0) = 2 * width := by
  have inBlocks : stage < blocks.length := Nat.lt_of_succ_lt later
  have inStrides : stage < strides.length := listed.lengths.2.1 ▸ inBlocks
  have deep := List.getElem?_eq_getElem inBlocks
  have some_block := listed.depths _ (List.mem_of_getElem? deep)
  rw [place_succ deep, Nat.add_zero, ← Nat.sub_add_cancel some_block]
  exact entering_repeated deep wide (List.getElem?_eq_getElem inStrides)
    (Nat.sub_lt some_block Nat.one_pos) inChannels

theorem length_chain (index inChannels : Nat) (steps : List (Nat × Nat)) :
    (chain index inChannels steps).length = steps.length := by
  induction steps generalizing index inChannels with
  | nil => rfl
  | cons step steps ih => rw [chain, List.length_cons, ih, List.length_cons]

/-- The blocks of a chain have the strides they were made from. -/
theorem map_stride_chain (index inChannels : Nat) (steps : List (Nat × Nat)) :
    (chain index inChannels steps).map (·.stride) = steps.map (·.2) := by
  induction steps generalizing index inChannels with
  | nil => rfl
  | cons step steps ih => rw [chain, List.map_cons, ih, List.map_cons]

/-- Every block of a chain takes both halves of the block before it. -/
theorem isChain_chain (index inChannels : Nat) (steps : List (Nat × Nat)) :
    (chain index inChannels steps).IsChain fun before after =>
      after.inChannels = 2 * before.outChannels := by
  induction steps generalizing index inChannels with
  | nil => exact List.isChain_nil
  | cons step steps ih =>
      cases steps with
      | nil => exact List.isChain_singleton _
      | cons next steps => exact List.isChain_cons_cons.mpr ⟨rfl, ih _ _⟩

/-! ## Expansion -/

/-- What a schedule has to be to spell out the stage lists. -/
structure SpellsOut (inChannels : Nat) (channels blocks strides : List Nat)
    (specs : List BlockSpec) : Prop where
  length : specs.length = blocks.sum
  numbers : ∀ place spec, specs[place]? = some spec →
    spec.index = place ∧ (spec.isFirst = true ↔ place = 0)
  /-- Every block of a stage has its width, and the first of them its stride. -/
  stages : ∀ stage depth width stride block, blocks[stage]? = some depth →
    channels[stage]? = some width → strides[stage]? = some stride → block < depth →
      ∃ spec, specs[place blocks stage block]? = some spec ∧ spec.outChannels = width ∧
        spec.stride = if block = 0 then stride else 1
  strides : specs.map (·.stride) = flattenedStrides blocks strides
  entrance : specs.head?.map (·.inChannels) = some inChannels
  /-- A block takes both halves of the block before it. -/
  pairs : ∀ place before after, specs[place]? = some before → specs[place + 1]? = some after →
    after.inChannels = 2 * before.outChannels
  words : ∀ spec ∈ specs, 2 * spec.outChannels < 2 ^ 64

theorem spellsOut_chain (listed : Listed channels blocks strides) (inChannels : Nat) :
    SpellsOut inChannels channels blocks strides (chain 0 inChannels
      ((flattenedChannels channels blocks).zip (flattenedStrides blocks strides))) := by
  obtain ⟨channels_length, strides_length, -⟩ := listed.lengths
  constructor
  case length => rw [length_chain, length_zip_flattened channels_length strides_length]
  case numbers =>
    intro place spec here
    rw [getElem?_chain, Option.map_eq_some_iff] at here
    obtain ⟨step, -, rfl⟩ := here
    simp
  case stages =>
    intro stage depth width stride block deep wide strode inside
    have spec := getElem?_chain 0 inChannels ((flattenedChannels channels blocks).zip
      (flattenedStrides blocks strides)) (place blocks stage block)
    rw [getElem?_zip_flattened deep wide strode inside] at spec
    exact ⟨_, spec, rfl, rfl⟩
  case strides => rw [map_stride_chain, map_snd_zip_flattened channels_length strides_length]
  case entrance =>
    have nonempty : chain 0 inChannels _ ≠ [] := chain_flattened_ne_nil (listed_iff.mp listed)
    cases steps : (flattenedChannels channels blocks).zip (flattenedStrides blocks strides) with
    | nil => simp [steps, chain] at nonempty
    | cons step steps => rfl
  case pairs =>
    intro place before after here next
    rw [getElem?_chain, Option.map_eq_some_iff] at here next
    obtain ⟨step, found, rfl⟩ := here
    obtain ⟨_, -, rfl⟩ := next
    simp [entering, found]
  case words =>
    intro spec member
    exact listed.room (outChannels_mem member)

/-- Exactly the stage lists that describe the same stages, none of them empty, too wide
or of another stride than one and two, are written out. Everything else is refused as
a fault of the configuration. -/
theorem expand_exact (inChannels : Nat) (channels blocks strides : List Nat) :
    ((∃ specs, expand inChannels channels blocks strides = .ok specs) ↔
        Listed channels blocks strides) ∧
      (¬ Listed channels blocks strides →
        ∃ cause, expand inChannels channels blocks strides = .error (.config cause)) ∧
      ∀ specs, expand inChannels channels blocks strides = .ok specs →
        SpellsOut inChannels channels blocks strides specs := by
  have written : (∃ specs, expand inChannels channels blocks strides = .ok specs) ↔
      Listed channels blocks strides := by
    simp only [expand_eq_ok_iff, listed_iff, exists_and_left, exists_eq, and_true]
  refine ⟨written, ?_, ?_⟩
  · intro unlisted
    apply (expand_configOnly inChannels channels blocks strides).exists_cause
    intro specs expanded
    exact unlisted (written.mp ⟨specs, expanded⟩)
  · intro specs expanded
    have listed := written.mp ⟨specs, expanded⟩
    obtain ⟨-, rfl⟩ := expand_eq_ok_iff.mp expanded
    exact spellsOut_chain listed inChannels

/-- Two blocks and then three, the first of these downsampling. Without the depth of the
second stage the same lists are refused. -/
theorem expand_exact_twoStages :
    Listed [2, 8] [2, 3] [1, 2] ∧
      (∃ specs, expand 3 [2, 8] [2, 3] [1, 2] = .ok specs ∧
        SpellsOut 3 [2, 8] [2, 3] [1, 2] specs ∧
        ∃ spec, specs[place [2, 3] 1 1]? = some spec ∧ spec.outChannels = 8 ∧ spec.stride = 1) ∧
      ¬ Listed [2, 8] [2] [1, 2] ∧ ∃ cause, expand 3 [2, 8] [2] [1, 2] = .error (.config cause) := by
  have listed : Listed [2, 8] [2, 3] [1, 2] := listed_iff.mpr (by decide)
  have unlisted : ¬ Listed [2, 8] [2] [1, 2] := fun shorter =>
    absurd shorter.lengths.1 (by decide)
  obtain ⟨written, -, spelled⟩ := expand_exact 3 [2, 8] [2, 3] [1, 2]
  obtain ⟨specs, expanded⟩ := written.mpr listed
  have spells := spelled specs expanded
  exact ⟨listed, ⟨specs, expanded, spells, spells.stages 1 3 8 2 1 rfl rfl rfl (by decide)⟩,
    unlisted, (expand_exact 3 [2, 8] [2] [1, 2]).2.1 unlisted⟩

end InvertibleNet.Schedule
