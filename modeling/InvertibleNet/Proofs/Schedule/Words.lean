/-
# Block arithmetic in machine words

The arithmetic of blocks and schedules is written in plain naturals. A machine has words:
some of its operations stop at the largest word, some have no value behind it, but others are
taken without a check and break off, as does a division by zero. This module spells the
arithmetic out operation by operation, down to the wording of a refusal. None of it ever
breaks off, and what it computes are the plain naturals. Where an operation is not checked, a
comparison in front of it, often with a saturated value, has kept its result inside the word.
-/

import Mathlib.Tactic.SplitIfs
import InvertibleNet.Proofs.Schedule.Stages

namespace InvertibleNet

namespace Count

/-! ## Operations that break off -/

/-- A sum or a product that is taken without a check. -/
def unchecked (value : Nat) : Except Fault Nat :=
  if value < limit then .ok value else .error (.breakdown .overflow)

theorem unchecked_eq {value : Nat} (fits : value < limit) : unchecked value = .ok value :=
  if_pos fits

/-- The quotient of a division, which breaks off at zero. -/
def quotient (value divisor : Nat) : Except Fault Nat :=
  if divisor = 0 then .error (.breakdown .divisionByZero) else .ok (value / divisor)

theorem quotient_eq {divisor : Nat} (positive : 0 < divisor) (value : Nat) :
    quotient value divisor = .ok (value / divisor) :=
  if_neg (Nat.ne_of_gt positive)

/-- The remainder of a division, which breaks off at zero. -/
def remainder (value divisor : Nat) : Except Fault Nat :=
  if divisor = 0 then .error (.breakdown .divisionByZero) else .ok (value % divisor)

theorem remainder_eq {divisor : Nat} (positive : 0 < divisor) (value : Nat) :
    remainder value divisor = .ok (value % divisor) :=
  if_neg (Nat.ne_of_gt positive)

theorem saturate_lt (value : Nat) : saturate value < limit :=
  Nat.lt_of_le_of_lt (Nat.min_le_right _ _) (by decide)

/-- What lies below a word even after it was cut off has not been cut off. -/
theorem lt_limit_of_saturate_lt {value word : Nat} (below : saturate value < word)
    (fits : word < limit) : value < limit := by
  unfold saturate at below
  omega

end Count

/-! ## One block -/

/-- The wording of a fault, with the product that one of them quotes. -/
def BlockFault.textOnWords : BlockFault → Except Fault String
  | .shrinkingChannels outChannels inChannels => do
      let doubled ← Count.unchecked (2 * outChannels)
      return s!"channels may only grow: 2 x out_channels={doubled} < in_channels={inChannels}"
  | fault => return fault.text

namespace BlockSpec

/-- Both operations of the padding stop at an end of the word. -/
def padOnWords (spec : BlockSpec) : Except Fault Nat :=
  if spec.stride = 1 then return Count.saturate (2 * spec.outChannels) - spec.inChannels
  else return 0

def isInjectiveOnWords (spec : BlockSpec) : Except Fault Bool :=
  return decide (0 < (← spec.padOnWords))

def halfChannelsOnWords (spec : BlockSpec) : Except Fault Nat := do
  let padded ← Count.unchecked (spec.inChannels + (← spec.padOnWords))
  Count.quotient padded 2

def bottleneckWidthOnWords (spec : BlockSpec) (multiplier : Nat) : Except Fault Nat :=
  if multiplier = 0 then return 0 else Count.quotient spec.outChannels multiplier

/-- What is wrong with a block of stride one. The remainder is only taken of a block that does
not pad. -/
def keepingFaultOnWords? (spec : BlockSpec) : Except Fault (Option BlockFault) := do
  if Count.saturate (2 * spec.outChannels) < spec.inChannels then
    return some (.shrinkingChannels spec.outChannels spec.inChannels)
  else if ← spec.isInjectiveOnWords then return none
  else if (← Count.remainder spec.inChannels 2) ≠ 0 then return some (.oddHalves spec.inChannels)
  else return none

/-- What is wrong with a block of stride two. -/
def downsamplingFaultOnWords? (spec : BlockSpec) : Except Fault (Option BlockFault) := do
  if (← Count.remainder spec.inChannels 2) ≠ 0 then
    return some (.oddDownsampling spec.inChannels)
  else if Count.checked (2 * spec.inChannels) ≠ some spec.outChannels then
    return some (.downsampledWidth spec.inChannels spec.outChannels)
  else return none

/-- What is wrong with a block, one test after the other. -/
def faultOnWords? (spec : BlockSpec) (multiplier : Nat) :
    Except Fault (Option BlockFault) := do
  if spec.inChannels = 0 ∨ spec.outChannels = 0 then return some .emptyChannels
  else if spec.inChannels < 2 then return some (.noPair spec.inChannels)
  else if multiplier = 0 then return some .zeroMultiplier
  else if (← spec.bottleneckWidthOnWords multiplier) = 0 then
    return some (.emptyBottleneck spec.outChannels multiplier)
  else if spec.stride = 1 then spec.keepingFaultOnWords?
  else if spec.stride = 2 then spec.downsamplingFaultOnWords?
  else return some (.unsupportedStride spec.stride)

/-- Accept a block, or refuse it with a message. -/
def validateOnWords (spec : BlockSpec) (multiplier : Nat) :
    Except Fault (Except String Unit) := do
  match ← spec.faultOnWords? multiplier with
  | none => return .ok ()
  | some fault =>
      return .error s!"configuration error: block #{spec.index}: {← fault.textOnWords}"

variable {spec : BlockSpec} {multiplier : Nat}

theorem padOnWords_eq (spec : BlockSpec) : spec.padOnWords = .ok spec.pad := by
  unfold padOnWords pad
  split <;> rfl

theorem isInjectiveOnWords_eq (spec : BlockSpec) :
    spec.isInjectiveOnWords = .ok spec.isInjective := by
  rw [isInjectiveOnWords, padOnWords_eq]
  rfl

/-- Padding fills up to the saturated output, or there is none. -/
theorem padded_lt (fits : spec.inChannels < Count.limit) :
    spec.inChannels + spec.pad < Count.limit := by
  have saturated := Count.saturate_lt (2 * spec.outChannels)
  unfold pad
  split <;> omega

theorem halfChannelsOnWords_eq (fits : spec.inChannels < Count.limit) :
    spec.halfChannelsOnWords = .ok spec.halfChannels := by
  simp only [halfChannelsOnWords, padOnWords_eq, bind, Except.bind,
    Count.unchecked_eq (padded_lt fits)]
  exact Count.quotient_eq (by decide) _

theorem bottleneckWidthOnWords_eq (spec : BlockSpec) (multiplier : Nat) :
    spec.bottleneckWidthOnWords multiplier = .ok (spec.bottleneckWidth multiplier) := by
  unfold bottleneckWidthOnWords bottleneckWidth
  split
  · rfl
  · next some => exact Count.quotient_eq (Nat.pos_of_ne_zero some) _

theorem keepingFaultOnWords?_eq (spec : BlockSpec) :
    spec.keepingFaultOnWords? = .ok
      (if Count.saturate (2 * spec.outChannels) < spec.inChannels then
        some (.shrinkingChannels spec.outChannels spec.inChannels)
      else if spec.isInjective = false ∧ spec.inChannels % 2 ≠ 0 then
        some (.oddHalves spec.inChannels)
      else none) := by
  unfold keepingFaultOnWords?
  split
  · rfl
  · rw [isInjectiveOnWords_eq, Count.remainder_eq (by decide)]
    cases spec.isInjective with
    | true => rfl
    | false =>
        by_cases even : spec.inChannels % 2 = 0 <;>
          simp [even, bind, Except.bind, pure, Except.pure]

theorem downsamplingFaultOnWords?_eq (spec : BlockSpec) :
    spec.downsamplingFaultOnWords? = .ok
      (if spec.inChannels % 2 ≠ 0 then some (.oddDownsampling spec.inChannels)
      else if Count.checked (2 * spec.inChannels) ≠ some spec.outChannels then
        some (.downsampledWidth spec.inChannels spec.outChannels)
      else none) := by
  rw [downsamplingFaultOnWords?, Count.remainder_eq (by decide)]
  simp only [bind, Except.bind, pure, Except.pure]
  split
  · rfl
  · split <;> rfl

/-- The tests of a block come to the same fault. -/
theorem faultOnWords?_eq (spec : BlockSpec) (multiplier : Nat) :
    spec.faultOnWords? multiplier = .ok (spec.fault? multiplier) := by
  unfold faultOnWords? fault?
  rw [bottleneckWidthOnWords_eq, keepingFaultOnWords?_eq, downsamplingFaultOnWords?_eq]
  simp only [bind, Except.bind, pure, Except.pure, apply_ite Except.ok]

/-- A fault that quotes a product comes from a comparison with the saturated product. -/
theorem saturate_lt_of_fault {outChannels inChannels : Nat}
    (found : spec.fault? multiplier = some (.shrinkingChannels outChannels inChannels)) :
    outChannels = spec.outChannels ∧ Count.saturate (2 * spec.outChannels) < spec.inChannels := by
  unfold fault? at found
  split_ifs at found with _ _ _ _ _ shrinking <;> cases found
  exact ⟨rfl, shrinking⟩

/-- The product that a fault quotes is below the input channels. -/
theorem textOnWords_eq (fits : spec.inChannels < Count.limit) {fault : BlockFault}
    (found : spec.fault? multiplier = some fault) : fault.textOnWords = .ok fault.text := by
  cases fault with
  | shrinkingChannels outChannels inChannels =>
      -- The comparison saw the product cut off, but below the input nothing is cut off.
      obtain ⟨rfl, shrinking⟩ := saturate_lt_of_fault found
      have doubled := Count.lt_limit_of_saturate_lt shrinking fits
      rw [BlockFault.textOnWords, Count.unchecked_eq doubled]
      rfl
  | _ => rfl

/-- The checks of a block come to an end and to the same message. -/
theorem validateOnWords_eq (fits : spec.inChannels < Count.limit) :
    spec.validateOnWords multiplier = .ok ((spec.validate multiplier).mapError Fault.message) := by
  rw [validateOnWords, faultOnWords?_eq, validate]
  cases found : spec.fault? multiplier with
  | none => rfl
  | some fault =>
      simp only [bind, Except.bind, textOnWords_eq fits found]
      rfl

end BlockSpec

/-! ## Stages -/

namespace Schedule

/-- The blocks of a schedule. Every block doubles its width for the one behind it, the last
one for nobody. -/
def chainOnWords (index inChannels : Nat) :
    List (Nat × Nat) → Except Fault (List BlockSpec)
  | [] => return []
  | (outChannels, stride) :: rest => do
      let doubled ← Count.unchecked (2 * outChannels)
      let specs ← chainOnWords (index + 1) doubled rest
      return { index, inChannels, outChannels, stride, isFirst := index = 0 } :: specs

/-- The schedule of the listed stages. -/
def expandOnWords (inChannels : Nat) (channels blocks strides : List Nat) :
    Except Fault (Except Fault (List BlockSpec)) := do
  match stageFault? channels blocks strides with
  | some fault => return .error (.config fault)
  | none =>
      return .ok (← chainOnWords 0 inChannels
        ((flattenedChannels channels blocks).zip (flattenedStrides blocks strides)))

/-- Channels behind the last block. -/
def finalChannelsOnWords (specs : List BlockSpec) : Except Fault (Option Nat) :=
  match specs.getLast? with
  | none => return none
  | some last => some <$> Count.unchecked (2 * last.outChannels)

/-- Stages that pass their checks leave room for four times their width. -/
theorem doubled_lt {inChannels : Nat} {channels blocks strides : List Nat}
    (stages : stageFault? channels blocks strides = none) {spec : BlockSpec}
    (member : spec ∈ chain 0 inChannels
      ((flattenedChannels channels blocks).zip (flattenedStrides blocks strides))) :
    2 * spec.outChannels < Count.limit := by
  obtain ⟨-, -, -, widths, -⟩ := stageFault?_eq_none_iff.mp stages
  have := (widths _ (outChannels_mem member)).2
  omega

theorem chainOnWords_eq {index inChannels : Nat} {steps : List (Nat × Nat)}
    (fits : ∀ spec ∈ chain index inChannels steps, 2 * spec.outChannels < Count.limit) :
    chainOnWords index inChannels steps = .ok (chain index inChannels steps) := by
  induction steps generalizing index inChannels with
  | nil => rfl
  | cons step steps ih =>
      rw [chain, List.forall_mem_cons] at fits
      rw [chainOnWords, Count.unchecked_eq fits.1]
      simp only [bind, Except.bind, ih fits.2]
      rfl

theorem expandOnWords_eq (inChannels : Nat) (channels blocks strides : List Nat) :
    expandOnWords inChannels channels blocks strides =
      .ok (expand inChannels channels blocks strides) := by
  unfold expandOnWords expand
  cases stages : stageFault? channels blocks strides with
  | some fault => rfl
  | none =>
      simp only [chainOnWords_eq fun spec member => doubled_lt stages member]
      rfl

/-- No arithmetic of a block whose input fits a word breaks off, whatever else the block says
and whatever the multiplier: neither where it is validated nor where a message is put
together. No list of stages breaks off either. Behind stages that are expanded, twice the
output channels of every block fit a word, and so do the final channels. -/
theorem computes_on_words :
    (∀ (spec : BlockSpec) (multiplier : Nat), spec.inChannels < Count.limit →
      spec.padOnWords = .ok spec.pad ∧
        spec.isInjectiveOnWords = .ok spec.isInjective ∧
        spec.halfChannelsOnWords = .ok spec.halfChannels ∧
        spec.bottleneckWidthOnWords multiplier = .ok (spec.bottleneckWidth multiplier) ∧
        spec.validateOnWords multiplier =
          .ok ((spec.validate multiplier).mapError Fault.message)) ∧
      ∀ (inChannels : Nat) (channels blocks strides : List Nat),
        expandOnWords inChannels channels blocks strides =
            .ok (expand inChannels channels blocks strides) ∧
          ∀ specs, expand inChannels channels blocks strides = .ok specs →
            (∀ spec ∈ specs, 2 * spec.outChannels < Count.limit) ∧
              finalChannelsOnWords specs = .ok (specs.getLast?.map (2 * ·.outChannels)) := by
  refine ⟨fun spec multiplier fits => ⟨spec.padOnWords_eq, spec.isInjectiveOnWords_eq,
    BlockSpec.halfChannelsOnWords_eq fits, spec.bottleneckWidthOnWords_eq multiplier,
    BlockSpec.validateOnWords_eq fits⟩, ?_⟩
  intro inChannels channels blocks strides
  refine ⟨expandOnWords_eq inChannels channels blocks strides, fun specs expands => ?_⟩
  obtain ⟨stages, rfl⟩ := expand_eq_ok_iff.mp expands
  refine ⟨fun spec member => doubled_lt stages member, ?_⟩
  unfold finalChannelsOnWords
  split
  · next none => rw [none]; rfl
  · next last ends =>
    rw [ends, Count.unchecked_eq (doubled_lt stages (List.mem_of_getLast? ends))]
    rfl

/-- The largest input with half as many output channels, less a half: the message quotes the
largest even word. -/
theorem computes_on_words_largest :
    (BlockSpec.mk 0 (Count.limit - 1) (Count.limit / 2 - 1) 1 true).halfChannelsOnWords =
        .ok (Count.limit / 2 - 1) ∧
      (BlockSpec.mk 0 (Count.limit - 1) (Count.limit / 2 - 1) 1 true).validateOnWords 1 =
        .ok (.error ("configuration error: block #0: channels may only grow: 2 x out_channels=" ++
          "18446744073709551614 < in_channels=18446744073709551615")) := by
  obtain ⟨-, -, halves, -, validates⟩ := computes_on_words.1
    (.mk 0 (Count.limit - 1) (Count.limit / 2 - 1) 1 true) 1 (by decide)
  exact ⟨halves, validates⟩

end Schedule

end InvertibleNet
