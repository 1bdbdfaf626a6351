/-
# Stage by stage

A schedule is written out block by block, and its blocks are checked one by one.
All that these checks decide can be read off the stages: the first block of a
stage carries whatever can be wrong with the stage, and every further block
repeats a width it has been given. So depths play no part beyond being positive,
neither in what is accepted nor in the product of the strides.
-/

import Mathlib.Algebra.Group.Nat.Defs
import InvertibleNet.Proofs.Outcome
import InvertibleNet.Proofs.Schedule.Soundness

namespace InvertibleNet.Schedule

open Outcome

variable {multiplier : Nat}

/-- Whether stages, each a width and a stride, can follow the given number of
channels with this divisor. -/
def Admits (multiplier inChannels : Nat) : List (Nat × Nat) → Prop
  | [] => True
  | (width, stride) :: stages =>
      (2 ≤ inChannels ∧ 1 ≤ multiplier ∧ multiplier ≤ width ∧
        StageFits inChannels width stride) ∧ Admits multiplier (2 * width) stages

/-! ## The list of blocks -/

theorem flattenedChannels_cons (width depth : Nat) (channels blocks : List Nat) :
    flattenedChannels (width :: channels) (depth :: blocks) =
      List.replicate depth width ++ flattenedChannels channels blocks := by
  simp [flattenedChannels]

theorem flattenedStrides_cons (depth stride : Nat) (blocks strides : List Nat) :
    flattenedStrides (depth :: blocks) (stride :: strides) =
      stageStrides depth stride ++ flattenedStrides blocks strides := by
  simp [flattenedStrides]

@[simp]
theorem length_stageStrides (depth stride : Nat) : (stageStrides depth stride).length = depth := by
  cases depth with
  | zero => rfl
  | succ rest => simp [stageStrides]

/-- The blocks of the first stage stand in front of those of the others, also if it has
none. -/
theorem zip_flattened_cons (width depth stride : Nat) (channels blocks strides : List Nat) :
    (flattenedChannels (width :: channels) (depth :: blocks)).zip
        (flattenedStrides (depth :: blocks) (stride :: strides)) =
      (List.replicate depth width).zip (stageStrides depth stride) ++
        (flattenedChannels channels blocks).zip (flattenedStrides blocks strides) := by
  rw [flattenedChannels_cons, flattenedStrides_cons, List.zip_append (by simp)]

/-- A stage with a block has one that may change the width, and further ones that keep it. -/
theorem zip_stage (width depth stride : Nat) :
    (List.replicate (depth + 1) width).zip (stageStrides (depth + 1) stride) =
      (width, stride) :: List.replicate depth (width, 1) := by
  rw [List.replicate_succ, stageStrides, List.zip_cons_cons, List.zip_replicate']

/-- Every block has a width and a stride of the list it was made from. -/
theorem mem_of_mem_chain {spec : BlockSpec} {index inChannels : Nat} {steps : List (Nat × Nat)}
    (member : spec ∈ chain index inChannels steps) : (spec.outChannels, spec.stride) ∈ steps := by
  induction steps generalizing index inChannels with
  | nil => cases member
  | cons step steps ih =>
      rcases List.mem_cons.mp member with rfl | later
      · exact List.mem_cons_self
      · exact List.mem_cons_of_mem _ (ih later)

/-- Every block has the width of a stage. -/
theorem outChannels_mem {spec : BlockSpec} {inChannels : Nat} {channels blocks strides : List Nat}
    (member : spec ∈ chain 0 inChannels
      ((flattenedChannels channels blocks).zip (flattenedStrides blocks strides))) :
    spec.outChannels ∈ channels := by
  have inWidths := (List.of_mem_zip (mem_of_mem_chain member)).1
  obtain ⟨⟨width, depth⟩, stage, inStage⟩ := List.mem_flatMap.mp inWidths
  rw [List.eq_of_mem_replicate inStage]
  exact (List.of_mem_zip stage).1

/-! ## Checking the blocks of a stage -/

/-- A block that keeps the width it has been given passes wherever a block of its
width has passed. -/
theorem chain_replicate_valid_iff {width : Nat} (positive : 1 ≤ width)
    (room : 4 * width < Count.limit) (multiplier_pos : 1 ≤ multiplier)
    (multiplier_le : multiplier ≤ width) (index depth : Nat) (rest : List (Nat × Nat)) :
    (∀ spec ∈ chain index (2 * width) (List.replicate depth (width, 1) ++ rest),
        spec.fault? multiplier = none) ↔
      ∀ spec ∈ chain (index + depth) (2 * width) rest, spec.fault? multiplier = none := by
  induction depth generalizing index with
  | zero => rfl
  | succ depth ih =>
      have repeated : StageFits (2 * width) width 1 := .inl ⟨rfl, Nat.le_refl _⟩
      have valid : (BlockSpec.mk index (2 * width) width 1 (index = 0)).fault? multiplier = none :=
        (BlockSpec.fault?_eq_none_iff (by show 2 * width < _; omega)).mpr
          ⟨by show 2 ≤ 2 * width; omega, multiplier_pos, multiplier_le, repeated⟩
      rw [List.replicate_succ, List.cons_append, chain, List.forall_mem_cons, ih,
        Nat.add_right_comm, Nat.add_assoc]
      exact and_iff_right valid

/-- All blocks of a schedule pass their checks exactly if its stages fit each
other. The index of the first block, and every depth, is free. -/
theorem chain_valid_iff {channels blocks strides : List Nat} (index inChannels : Nat)
    (channels_length : channels.length = blocks.length)
    (strides_length : blocks.length = strides.length)
    (depths : ∀ depth ∈ blocks, depth ≠ 0)
    (widths : ∀ width ∈ channels, 1 ≤ width ∧ 4 * width < Count.limit) :
    (∀ spec ∈ chain index inChannels
        ((flattenedChannels channels blocks).zip (flattenedStrides blocks strides)),
        spec.fault? multiplier = none) ↔
      Admits multiplier inChannels (channels.zip strides) := by
  induction channels generalizing blocks strides index inChannels with
  | nil => simp [flattenedChannels, chain, Admits]
  | cons width channels ih =>
      cases blocks with
      | nil => simp at channels_length
      | cons depth blocks =>
          cases strides with
          | nil => simp at strides_length
          | cons stride strides =>
              obtain ⟨depth, rfl⟩ := Nat.exists_eq_succ_of_ne_zero (depths depth List.mem_cons_self)
              obtain ⟨positive, room⟩ := widths width List.mem_cons_self
              have rest := ih (index + 1 + depth) (2 * width) (by simpa using channels_length)
                (by simpa using strides_length)
                (fun other member => depths other (List.mem_cons_of_mem _ member))
                (fun other member => widths other (List.mem_cons_of_mem _ member))
              rw [zip_flattened_cons, zip_stage, List.cons_append, chain, List.forall_mem_cons,
                List.zip_cons_cons, Admits,
                BlockSpec.fault?_eq_none_iff (by show 2 * width < _; omega)]
              apply and_congr_right
              intro first
              rw [chain_replicate_valid_iff positive room first.2.1 first.2.2.1]
              exact rest

/-! ## Strides -/

theorem prod_stageStrides {depth : Nat} (some_block : 1 ≤ depth) (stride : Nat) :
    (stageStrides depth stride).prod = stride := by
  cases depth with
  | zero => exact absurd some_block (Nat.not_lt_zero 0)
  | succ rest => rw [stageStrides, List.prod_cons, List.prod_replicate_nat, Nat.one_pow, Nat.mul_one]

/-- The strides of all blocks multiply to those of the stages. -/
theorem prod_flattenedStrides {blocks strides : List Nat} (lengths : blocks.length = strides.length)
    (depths : ∀ depth ∈ blocks, 1 ≤ depth) :
    (flattenedStrides blocks strides).prod = strides.prod := by
  induction blocks generalizing strides with
  | nil =>
      cases strides with
      | nil => rfl
      | cons stride strides => simp at lengths
  | cons depth blocks ih =>
      cases strides with
      | nil => simp at lengths
      | cons stride strides =>
          have rest := ih (by simpa using lengths)
            (fun other member => depths other (List.mem_cons_of_mem _ member))
          rw [flattenedStrides_cons, List.prod_append_nat,
            prod_stageStrides (depths depth List.mem_cons_self), rest, List.prod_cons]

/-- The strides of the stages multiply to a power of two. -/
theorem prod_strides {strides : List Nat} (supported : ∀ stride ∈ strides, stride = 1 ∨ stride = 2) :
    strides.prod = 2 ^ strides.count 2 := by
  induction strides with
  | nil => rfl
  | cons stride strides ih =>
      have rest := ih fun other member => supported other (List.mem_cons_of_mem _ member)
      rcases supported stride List.mem_cons_self with rfl | rfl
      · rw [List.prod_cons, rest, Nat.one_mul, List.count_cons_of_ne (by decide)]
      · rw [List.prod_cons, rest, List.count_cons_self, Nat.pow_succ, Nat.mul_comm]

/-! ## Expansion -/

/-- A search that refuses what it finds lets a list without such an item through. -/
theorem search_eq_none_iff {items : List Nat} {test : Nat → Bool} {fault : Nat → ConfigFault}
    {rest : Option ConfigFault} :
    (if let some place := items.findIdx? test then some (fault place) else rest) = none ↔
      (∀ item ∈ items, test item = false) ∧ rest = none := by
  rw [← List.findIdx?_eq_none_iff]
  cases items.findIdx? test with
  | some place => simp
  | none => simp

/-- When the stage lists can be written out. -/
theorem stageFault?_eq_none_iff {channels blocks strides : List Nat} :
    stageFault? channels blocks strides = none ↔
      (channels.length = blocks.length ∧ blocks.length = strides.length) ∧ blocks ≠ [] ∧
        (∀ depth ∈ blocks, depth ≠ 0) ∧
        (∀ width ∈ channels, 1 ≤ width ∧ 4 * width < Count.limit) ∧
        ∀ stride ∈ strides, stride = 1 ∨ stride = 2 := by
  unfold stageFault?
  by_cases lengths : channels.length ≠ blocks.length ∨ blocks.length ≠ strides.length
  · rw [if_pos lengths]
    simp only [reduceCtorEq, false_iff]
    omega
  rw [if_neg lengths]
  by_cases empty : blocks = []
  · simp [empty]
  rw [if_neg (by simpa using empty)]
  -- The searches follow each other, and each of them has to find nothing.
  refine (search_eq_none_iff.trans (and_congr_right' (search_eq_none_iff.trans (and_congr_right'
    (search_eq_none_iff.trans (and_congr_right' search_eq_none_iff)))))).trans ?_
  simp only [decide_eq_false_iff_not, and_true]
  apply Iff.intro
  · intro clear
    rcases clear with ⟨depths, positive, room, supported⟩
    refine ⟨by omega, empty, depths, fun width member => ?_, fun stride member => ?_⟩
    · exact ⟨Nat.pos_of_ne_zero (positive width member), Nat.lt_of_not_le (room width member)⟩
    · have := supported stride member
      omega
  · intro conditions
    rcases conditions with ⟨-, -, depths, widths, supported⟩
    refine ⟨depths, fun width member => ?_, fun width member => ?_, fun stride member => ?_⟩
    · exact Nat.ne_of_gt (widths width member).1
    · exact Nat.not_le.mpr (widths width member).2
    · have := supported stride member
      omega

/-- A schedule that can be written out has a block. -/
theorem chain_flattened_ne_nil {inChannels : Nat} {channels blocks strides : List Nat}
    (stages : stageFault? channels blocks strides = none) :
    chain 0 inChannels
      ((flattenedChannels channels blocks).zip (flattenedStrides blocks strides)) ≠ [] := by
  obtain ⟨⟨channels_length, strides_length⟩, nonempty, depths, -⟩ :=
    stageFault?_eq_none_iff.mp stages
  cases blocks with
  | nil => exact absurd rfl nonempty
  | cons depth blocks =>
      obtain ⟨depth, rfl⟩ := Nat.exists_eq_succ_of_ne_zero (depths depth List.mem_cons_self)
      cases channels with
      | nil => simp at channels_length
      | cons width channels =>
          cases strides with
          | nil => simp at strides_length
          | cons stride strides =>
              rw [zip_flattened_cons, zip_stage]
              exact List.cons_ne_nil _ _

/-- When an expansion has a result, and which. -/
theorem expand_eq_ok_iff {inChannels : Nat} {channels blocks strides : List Nat}
    {specs : List BlockSpec} :
    expand inChannels channels blocks strides = .ok specs ↔
      stageFault? channels blocks strides = none ∧
        specs = chain 0 inChannels
          ((flattenedChannels channels blocks).zip (flattenedStrides blocks strides)) := by
  unfold expand
  cases stageFault? channels blocks strides with
  | some fault => simp
  | none => simp [eq_comm]

theorem expand_configOnly (inChannels : Nat) (channels blocks strides : List Nat) :
    ConfigOnly (expand inChannels channels blocks strides) := by
  unfold expand
  cases stageFault? channels blocks strides with
  | some fault => exact ConfigOnly.config fault
  | none => exact ConfigOnly.ok _

end InvertibleNet.Schedule
