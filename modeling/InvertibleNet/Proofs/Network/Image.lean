/-
# The image of a branch

A branch that pads is not onto. What it reaches are the features whose way back
drops nothing but zeros, and on these its two directions are inverse to each
other. A branch without a padding block drops nothing, so it is a bijection
between the samples and the features of every batch.
-/

import Mathlib.Algebra.Ring.Int.Defs
import Mathlib.Logic.Equiv.Defs
import InvertibleNet.Proofs.Coupling.Batch
import InvertibleNet.Proofs.Network.Branch

namespace InvertibleNet

universe u

/-- A block that does not pad has nothing to drop. -/
theorem Coupling.dropsZeros_of_not_injective {α : Type u} [Zero α] [Add α] [Neg α]
    {block : Coupling α} (padless : block.spec.isInjective = false) (pair : Pair α) :
    block.DropsZeros pair := by
  intro halves merged _ _ sample channel row column behind
  have pad : block.spec.pad = 0 := Nat.eq_zero_of_not_pos (of_decide_eq_false padless)
  rw [pad, Nat.sub_zero] at behind
  exact Tensor.entry_of_not_contains fun contains => Nat.not_lt.mpr behind contains.2.1

namespace Branch

section Walks

variable {α : Type u} [Zero α] [Add α] [Neg α]

theorem dropsZeros_of_not_injective {blocks : List (Coupling α)}
    (padless : ∀ block ∈ blocks, block.spec.isInjective = false) (pair : Pair α) :
    DropsZeros blocks pair := by
  induction blocks generalizing pair with
  | nil => trivial
  | cons block blocks ih =>
      refine ⟨Coupling.dropsZeros_of_not_injective (padless block List.mem_cons_self) pair, ?_⟩
      exact fun next _ => ih (fun other member => padless other (List.mem_cons_of_mem _ member)) next

/-- Whether every channel that is dropped on the way back from some features is
zero. -/
def TruncatesZeros (branch : Branch α) (y : Tensor α) : Prop :=
  ∀ pair, y.split = .ok pair → DropsZeros branch.blocks.reverse pair

end Walks

variable {β : Type u} [AddGroup β] {branch : Branch β} {plan : Plan} {batch : Nat} {y : Tensor β}

theorem Follows.encode_decode_iff_truncatesZeros (follows : branch.Follows plan)
    (consistent : plan.Consistent) (some : 0 < batch)
    (features : y.shape = plan.features.batched batch) :
    branch.encode (branch.decode y) = y ↔ branch.TruncatesZeros y := by
  rw [follows.encode_decode_iff consistent some features]
  apply Iff.intro
  · intro zeros pair cuts
    rw [consistent.split_eq some features] at cuts
    cases cuts
    exact zeros
  · intro zeros
    exact zeros _ (consistent.split_eq some features)

/-- What a branch gives came from samples as many as the features. -/
theorem Follows.samples_of_forward (follows : branch.Follows plan) {x : Tensor β}
    (features : y.shape = plan.features.batched batch) (runs : branch.forward x = .ok y) :
    x.shape = plan.geometry.input.batched batch := by
  have count := batch_forward runs
  obtain ⟨entered, enters, -⟩ := Outcome.bind_eq_ok_iff.mp runs
  unfold enter at enters
  split at enters
  · next accepts =>
    obtain ⟨channels, height, width⟩ := accepts
    rw [follows.input] at channels height width
    rw [features] at count
    cases shape : x.shape
    rw [shape] at channels height width count
    cases channels
    cases height
    cases width
    cases count
    rfl
  · cases enters

/-- Features are reached exactly if the way back to a sample and there again gives
them back. -/
theorem Follows.reached_iff (follows : branch.Follows plan) (consistent : plan.Consistent)
    (some : 0 < batch) (features : y.shape = plan.features.batched batch) :
    (∃ x, branch.forward x = .ok y) ↔ branch.encode (branch.decode y) = y := by
  apply Iff.intro
  · intro reached
    rcases reached with ⟨x, runs⟩
    have samples := follows.samples_of_forward features runs
    rw [follows.forward_eq consistent some samples] at runs
    cases runs
    rw [follows.decode_encode consistent some samples]
  · intro again
    have samples := follows.shape_decode consistent some features
    exact ⟨branch.decode y, by rw [follows.forward_eq consistent some samples, again]⟩

theorem Follows.inverse_forward_iff (follows : branch.Follows plan) (consistent : plan.Consistent)
    (some : 0 < batch) (features : y.shape = plan.features.batched batch) :
    (branch.inverse y >>= branch.forward) = .ok y ↔ branch.encode (branch.decode y) = y := by
  have samples := follows.shape_decode consistent some features
  rw [follows.inverse_eq consistent some features]
  show branch.forward (branch.decode y) = .ok y ↔ _
  rw [follows.forward_eq consistent some samples, Except.ok.injEq]

/-- Between samples and features of one batch, a branch without padding. -/
def Follows.bijection (follows : branch.Follows plan) (consistent : plan.Consistent)
    (padless : ∀ spec ∈ plan.specs, spec.isInjective = false) (some : 0 < batch) :
    { x : Tensor β // x.shape = plan.geometry.input.batched batch } ≃
      { y : Tensor β // y.shape = plan.features.batched batch } where
  toFun x := ⟨branch.encode x.1, follows.shape_encode consistent some x.2⟩
  invFun y := ⟨branch.decode y.1, follows.shape_decode consistent some y.2⟩
  left_inv x := Subtype.ext (follows.decode_encode consistent some x.2)
  right_inv y := by
    refine Subtype.ext ((follows.encode_decode_iff consistent some y.2).mpr ?_)
    refine dropsZeros_of_not_injective (fun block member => padless block.spec ?_) _
    rw [← follows.specs]
    exact List.mem_map_of_mem (List.mem_reverse.mp member)

end Branch

/-- Going back from features and there again gives them back exactly if only zeros
are dropped on the way, and these are the features that the branch reaches at
all. Without a padding block the two directions are inverse bijections. -/
theorem NetworkConfig.Builds.branch_image {config : NetworkConfig} {plan : Plan}
    (builds : config.Builds plan) {β : Type u} [AddCommGroup β] {branch : Branch β}
    (follows : branch.Follows plan) :
    (∀ (batch : Nat) (y : Tensor β), 1 ≤ batch → y.shape = plan.features.batched batch →
      (∃ x, branch.inverse y = .ok x) ∧
        ((branch.inverse y >>= branch.forward) = .ok y ↔ branch.TruncatesZeros y) ∧
          (branch.TruncatesZeros y ↔ ∃ x, branch.forward x = .ok y)) ∧
      ((∀ spec ∈ plan.specs, spec.isInjective = false) → ∀ batch, 1 ≤ batch →
        ∃ bijection : { x : Tensor β // x.shape = config.input.batched batch } ≃
            { y : Tensor β // y.shape = plan.features.batched batch },
          (∀ x, branch.forward x.1 = .ok (bijection x).1) ∧
            ∀ y, branch.inverse y.1 = .ok (bijection.symm y).1) := by
  have consistent := builds.consistent
  have input : config.input = plan.geometry.input := by
    obtain ⟨-, rfl⟩ := NetworkConfig.builds_iff.mp builds
    rfl
  rw [input]
  refine ⟨?_, ?_⟩
  · intro batch y some features
    have zeros := follows.encode_decode_iff_truncatesZeros consistent some features
    refine ⟨⟨_, follows.inverse_eq consistent some features⟩, ?_, ?_⟩
    · rw [follows.inverse_forward_iff consistent some features, zeros]
    · rw [follows.reached_iff consistent some features, zeros]
  · intro padless batch some
    refine ⟨follows.bijection consistent padless some, ?_, ?_⟩
    · intro x
      exact follows.forward_eq consistent some x.2
    · intro y
      exact follows.inverse_eq consistent some y.2

/-- Features of the small configuration that count their channels. -/
def NetworkConfig.ramp : Tensor Int :=
  Tensor.ofFn (small.planned.features.batched 1) fun _ channel _ _ => channel

theorem NetworkConfig.branch_image_small :
    small.Builds small.planned ∧
      (∃ x, (Branch.repeating small.planned).inverse ramp = .ok x) ∧
        (((Branch.repeating small.planned).inverse ramp >>=
            (Branch.repeating small.planned).forward) = .ok ramp ↔
          (Branch.repeating small.planned).TruncatesZeros ramp) ∧
          ((Branch.repeating small.planned).TruncatesZeros ramp ↔
            ∃ x, (Branch.repeating small.planned).forward x = .ok ramp) := by
  have follows : (Branch.repeating small.planned : Branch Int).Follows small.planned :=
    Branch.follows_repeating small.planned
  exact ⟨builds_small, (builds_small.branch_image follows).1 1 ramp (Nat.le_refl 1) rfl⟩

end InvertibleNet
