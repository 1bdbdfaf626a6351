/-
# Runs of a network

What can be said of a network without looking at its weights. A configuration
that is built leaves nothing to fail at run time: a network takes every full
tensor of its input extents, and no other, and all it gives has the announced
shapes. Going back from its features always leads to a tensor of the shape of the
input, and to the input itself where sums are exact.
-/

import Mathlib.Algebra.Ring.Int.Defs
import InvertibleNet.Proofs.Command.Summary
import InvertibleNet.Proofs.Network.Weights

namespace InvertibleNet

universe u

namespace Network

variable {plan : Plan} {weights : Weights} {batch : Nat}

/-- The classifier takes the features of every batch. -/
theorem head_eq (some : 0 < batch) {features : Tensor Single}
    (shape : features.shape = plan.features.batched batch) :
    (Network.mk plan weights).head features =
      .ok (features.classify weights.norm weights.linear) := by
  have height : features.shape.height = plan.pooled.1 := by rw [shape]; rfl
  have width : features.shape.width = plan.pooled.2 := by rw [shape]; rfl
  have samples : features.shape.batch ≠ 0 := by
    rw [shape]
    exact Nat.ne_of_gt some
  unfold head
  simp only
  rw [if_pos ⟨height, width⟩, if_neg samples]

/-- A network on samples: the features are those that its branch encodes, and the
scores are those of the features. -/
theorem forward_encode (consistent : plan.Consistent) (fits : weights.Fits plan) (some : 0 < batch)
    {x : Tensor Single} (samples : x.shape = plan.geometry.input.batched batch) :
    (Network.mk plan weights).forward x =
      .ok (((Network.mk plan weights).branch.encode x).classify weights.norm weights.linear,
        (Network.mk plan weights).branch.encode x) := by
  have follows := follows_branch fits
  have shape := follows.shape_encode consistent some samples
  simp only [Network.forward, bind, Except.bind, follows.forward_eq consistent some samples,
    head_eq some shape]
  rfl

theorem forward_eq (consistent : plan.Consistent) (fits : weights.Fits plan) (some : 0 < batch)
    {x : Tensor Single} (samples : x.shape = plan.geometry.input.batched batch) :
    ∃ features : Tensor Single, features.shape = plan.features.batched batch ∧
      (Network.mk plan weights).forward x =
        .ok (features.classify weights.norm weights.linear, features) :=
  ⟨_, (follows_branch fits).shape_encode consistent some samples,
    forward_encode consistent fits some samples⟩

/-- Any other extents are refused in front of the first block. -/
theorem forward_refuses {x : Tensor Single}
    (other : ¬ (Network.mk plan weights).branch.Accepts x) :
    (Network.mk plan weights).forward x =
      .error (.shape (.networkInput plan.geometry.input.channels plan.geometry.input.height
        plan.geometry.input.width x.shape)) := by
  have enters : (Network.mk plan weights).branch.enter x = .error (.shape (.networkInput
      plan.geometry.input.channels plan.geometry.input.height plan.geometry.input.width
        x.shape)) := if_neg other
  simp only [Network.forward, Branch.forward, bind, Except.bind, enters]

/-- There is a score for each sample and class. -/
theorem size_classify (norm : Norm) (linear : Linear) (features : Tensor Single) :
    (features.classify norm linear).values.size = features.shape.batch * linear.classes :=
  Array.size_ofFn

end Network

namespace NetworkConfig

variable {config : NetworkConfig} {plan : Plan}

theorem Builds.plan_eq (builds : config.Builds plan) : plan = config.planned :=
  (builds_iff.mp builds).2

theorem Builds.input_eq (builds : config.Builds plan) : plan.geometry.input = config.input := by
  rw [builds.plan_eq]
  rfl

theorem Builds.classes_eq (builds : config.Builds plan) : plan.classes = config.classes := by
  rw [builds.plan_eq]
  rfl

/-- The extents of the features, read off the last block and the geometry. -/
theorem Builds.features_eq (builds : config.Builds plan) :
    ∃ last, plan.specs.getLast? = some last ∧
      plan.features = ⟨2 * last.outChannels,
        config.input.height / plan.geometry.cumulativeStride,
        config.input.width / plan.geometry.cumulativeStride⟩ := by
  obtain ⟨⟨plannable, -⟩, rfl⟩ := builds_iff.mp builds
  have ends := List.getLast?_eq_some_getLast (specs_ne_nil plannable.stages)
  refine ⟨_, ends, ?_⟩
  simp only [planned, Plan.features, ends, Option.elim_some]

/-- A network runs on a full tensor exactly if its extents are those of the input,
and says so otherwise. Where it runs, its features have the extents of every
summary of the configuration, and there is a score for each sample and class. -/
theorem Builds.forward_total (builds : config.Builds plan) {weights : Weights}
    (fits : weights.Fits plan) {x : Tensor Single} (full : x.shape.IsFull) :
    (Network.mk plan weights).isRunnable = true ∧
      (x.shape.channels = config.input.channels ∧ x.shape.height = config.input.height ∧
          x.shape.width = config.input.width →
        ∃ logits features last,
          (Network.mk plan weights).forward x = .ok (logits, features) ∧
            plan.specs.getLast? = some last ∧
            features.shape = ⟨x.shape.batch, 2 * last.outChannels,
              config.input.height / plan.geometry.cumulativeStride,
              config.input.width / plan.geometry.cumulativeStride⟩ ∧
            (∀ (source : Source) (before after : Session) (summary : Summary),
              source.summarise.Gives before summary after → summary.config = config →
                features.shape = summary.features.batched x.shape.batch) ∧
            logits.batch = x.shape.batch ∧ logits.classes = config.classes ∧
            logits.values.size = x.shape.batch * config.classes) ∧
      (¬ (x.shape.channels = config.input.channels ∧ x.shape.height = config.input.height ∧
          x.shape.width = config.input.width) →
        (Network.mk plan weights).forward x =
          .error (.shape (.networkInput config.input.channels config.input.height
            config.input.width x.shape))) := by
  have consistent := builds.consistent
  refine ⟨Network.isRunnable_of_fits fits, ?_, ?_⟩
  · intro extents
    rcases extents with ⟨channels, height, width⟩
    have samples : x.shape = plan.geometry.input.batched x.shape.batch := by
      rw [builds.input_eq, SampleShape.batched, ← channels, ← height, ← width]
    obtain ⟨features, shape, runs⟩ := Network.forward_eq consistent fits full.1 samples
    obtain ⟨last, ends, announced⟩ := builds.features_eq
    refine ⟨_, features, last, runs, ends, ?_, ?_, ?_, ?_, ?_⟩
    · rw [shape, announced]
      rfl
    · intro source before after summary finished same
      obtain ⟨other, builds_other, -, extents⟩ := Source.summary_of_plan finished
      rw [same] at builds_other
      rw [shape, extents, builds.plan_eq, builds_other.plan_eq]
    · show features.shape.batch = x.shape.batch
      rw [shape]
      rfl
    · exact fits.classes.trans builds.classes_eq
    · rw [Network.size_classify, fits.classes, builds.classes_eq, shape]
      rfl
  · intro other
    rw [← builds.input_eq] at other ⊢
    exact Network.forward_refuses other

/-- Some samples for the small configuration. -/
def smallInput {α : Type u} [Zero α] (value : α) : Tensor α :=
  Tensor.ofFn (small.input.batched 1) fun _ channel _ _ => if channel = 1 then value else 0

theorem forward_total_small :
    small.Builds small.planned ∧ ∃ logits features,
      (Network.mk small.planned (Weights.draw .fresh small.planned 1).run).forward
        (smallInput Single.one) = .ok (logits, features) ∧ features.shape = ⟨1, 16, 1, 1⟩ := by
  have fits := Weights.fits_draw WeightSource.lawful_fresh small.planned 1
  have full : (smallInput Single.one).shape.IsFull := by decide
  obtain ⟨-, runs, -⟩ := builds_small.forward_total fits full
  obtain ⟨logits, features, last, result, ends, shape, -⟩ := runs ⟨rfl, rfl, rfl⟩
  cases ends
  exact ⟨builds_small, logits, features, result, shape⟩

/-- Back from where a network has led: there is always a way, and it ends at a
tensor of the shape of the input, whatever the weights. Over a commutative group
it ends at the input, whatever the residual maps. -/
theorem Builds.round_trip (builds : config.Builds plan) :
    (∀ (weights : Weights) (batch : Nat) (x : Tensor Single), weights.Fits plan → 1 ≤ batch →
      x.shape = config.input.batched batch →
        ∃ features restored, (Network.mk plan weights).branch.forward x = .ok features ∧
          (Network.mk plan weights).branch.inverse features = .ok restored ∧
            restored.shape = x.shape) ∧
      ∀ {β : Type u} [AddCommGroup β] (branch : Branch β) (batch : Nat) (x : Tensor β),
        branch.Follows plan → 1 ≤ batch → x.shape = config.input.batched batch →
          ∃ features, branch.forward x = .ok features ∧ branch.inverse features = .ok x := by
  have consistent := builds.consistent
  rw [← builds.input_eq]
  refine ⟨?_, ?_⟩
  · intro weights batch x fits some samples
    have follows := Network.follows_branch fits
    have features := follows.shape_encode consistent some samples
    refine ⟨_, _, follows.forward_eq consistent some samples,
      follows.inverse_eq consistent some features, ?_⟩
    rw [follows.shape_decode consistent some features, samples]
  · intro β _ branch batch x follows some samples
    have features := follows.shape_encode consistent some samples
    refine ⟨_, follows.forward_eq consistent some samples, ?_⟩
    rw [follows.inverse_eq consistent some features, follows.decode_encode consistent some samples]

theorem round_trip_small :
    small.Builds small.planned ∧
      (∃ features restored,
        (Network.mk small.planned (Weights.draw .fresh small.planned 1).run).branch.forward
            (smallInput Single.one) = .ok features ∧
          (Network.mk small.planned (Weights.draw .fresh small.planned 1).run).branch.inverse
            features = .ok restored ∧
            restored.shape = (smallInput Single.one).shape) ∧
        ∃ features, (Branch.repeating small.planned).forward (smallInput (5 : Int)) = .ok features ∧
          (Branch.repeating small.planned).inverse features = .ok (smallInput (5 : Int)) := by
  have fits := Weights.fits_draw WeightSource.lawful_fresh small.planned 1
  have follows : (Branch.repeating small.planned : Branch Int).Follows small.planned :=
    Branch.follows_repeating small.planned
  obtain ⟨rounded, exact_sums⟩ := builds_small.round_trip
  exact ⟨builds_small, rounded _ 1 _ fits (Nat.le_refl 1) rfl,
    exact_sums _ 1 _ follows (Nat.le_refl 1) rfl⟩

end NetworkConfig

end InvertibleNet
