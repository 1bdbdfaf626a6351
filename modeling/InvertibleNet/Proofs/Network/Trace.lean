/-
# Traces of a network

A trace is made by a walk of its own, which joins the halves after every block and
could fail there. For a network that is built it never does: a trace ends where
the run without one ends, and is refused where that is refused. The trace of the
way back lines up with the trace of the way there, entry by entry.
-/

import InvertibleNet.Proofs.Network.Domain

namespace InvertibleNet

universe u

namespace Branch

variable {α : Type u} {branch : Branch α} {plan : Plan} {batch : Nat}

/-- What a branch accepts is a batch of samples. -/
theorem Follows.samples_of_accepts (follows : branch.Follows plan) {x : Tensor α}
    (accepts : branch.Accepts x) : x.shape = plan.geometry.input.batched x.shape.batch := by
  obtain ⟨channels, height, width⟩ := accepts
  rw [follows.input] at channels height width
  rw [SampleShape.batched, ← channels, ← height, ← width]

variable [Zero α] [Add α]

/-- The pair that the block at a place receives from the blocks in front of it;
behind the last block, the pair that the branch ends with. -/
def received (branch : Branch α) (x : Tensor α) (place : Nat) : Except Fault (Pair α) := do
  let entered ← branch.enter x
  let pair ← entered.splitAt (branch.inChannels / 2)
  runForward (branch.blocks.take place) pair

theorem Follows.forwardTrace_eq (follows : branch.Follows plan) (consistent : plan.Consistent)
    (some : 0 < batch) {x : Tensor α} (samples : x.shape = plan.geometry.input.batched batch) :
    branch.forwardTrace x = .ok (advances branch.blocks (branch.psi.gather x)) := by
  obtain ⟨behind, walks, states⟩ := walk_forward_cut (follows.runs consistent some)
    (follows.shape_gather consistent samples)
  simp only [forwardTrace, bind, Except.bind, follows.enter_eq consistent some samples,
    follows.splitAt_eq consistent samples, walks]
  exact congrArg Except.ok states

/-- Every entry of a trace is the merge of what the block at its place receives. -/
theorem Follows.received_eq (follows : branch.Follows plan) (consistent : plan.Consistent)
    (some : 0 < batch) {x : Tensor α} (samples : x.shape = plan.geometry.input.batched batch)
    {place : Nat} (bound : place ≤ branch.blocks.length) :
    ∃ pair merged, branch.received x place = .ok pair ∧ pair.merge = .ok merged ∧
      (advances branch.blocks (branch.psi.gather x))[place]? = .some merged := by
  obtain ⟨state, here, runs⟩ := getElem?_advances (follows.runs consistent some)
    (follows.shape_gather consistent samples) bound
  refine ⟨state.cut, state, ?_, Tensor.merge_cut state, here⟩
  simp only [received, bind, Except.bind, follows.enter_eq consistent some samples,
    follows.splitAt_eq consistent samples]
  exact runs

/-- The trace of the way there ends where the run ends, and is refused where it is. -/
theorem Follows.forward_traced (follows : branch.Follows plan) (consistent : plan.Consistent)
    {x : Tensor α} (full : x.shape.IsFull) :
    (∀ fault, branch.forward x = .error fault ↔ branch.forwardTrace x = .error fault) ∧
      ∀ trace, branch.forwardTrace x = .ok trace →
        trace.length = branch.blocks.length + 1 ∧
          ∃ entered features, branch.psi.forward x = .ok entered ∧ trace.head? = some entered ∧
            branch.forward x = .ok features ∧ trace.getLast? = some features := by
  by_cases accepts : branch.Accepts x
  · have samples := follows.samples_of_accepts accepts
    have divides := follows.divides consistent samples
    rw [follows.forward_eq consistent full.1 samples,
      follows.forwardTrace_eq consistent full.1 samples]
    refine ⟨fun fault => by simp only [reduceCtorEq], ?_⟩
    intro trace traced
    cases traced
    exact ⟨List.length_scanl, _, _, Psi.forward_eq_gather full divides, List.head?_scanl, rfl,
      List.getLast?_scanl⟩
  · have refused : branch.enter x = .error (.shape (.networkInput branch.input.channels
        branch.input.height branch.input.width x.shape)) := if_neg accepts
    simp only [Branch.forward, forwardTrace, bind, Except.bind, refused, Except.error.injEq]
    refine ⟨fun _ => trivial, ?_⟩
    intro trace traced
    cases traced

variable [Neg α]

theorem Follows.inverseTrace_eq (follows : branch.Follows plan) (consistent : plan.Consistent)
    {y : Tensor α} (full : y.shape.IsFull) (channels : y.shape.channels = plan.outChannels) :
    branch.inverseTrace y = .ok (retreats branch.blocks y) := by
  obtain ⟨shape, runs, features⟩ := follows.runs_full consistent full channels
  obtain ⟨behind, walks, states⟩ := walk_inverse_cut runs features
  have halves : y.split = .ok y.cut := by
    refine Tensor.split_eq_cut (Nat.ne_of_gt full.2.1) ?_
    rw [channels]
    exact consistent.even
  simp only [inverseTrace, bind, Except.bind, halves, walks]
  exact congrArg Except.ok states

/-- The trace of the way back begins where the entrance takes over, and is refused
where the run is. -/
theorem Follows.inverse_traced (follows : branch.Follows plan) (consistent : plan.Consistent)
    {last : BlockSpec} (ends : plan.specs.getLast? = some last) {y : Tensor α}
    (full : y.shape.IsFull) :
    (∀ fault, branch.inverse y = .error fault ↔ branch.inverseTrace y = .error fault) ∧
      ∀ trace, branch.inverseTrace y = .ok trace →
        trace.length = branch.blocks.length + 1 ∧ trace.getLast? = some y ∧
          ∃ entered restored, trace.head? = some entered ∧
            branch.psi.inverse entered = .ok restored ∧ branch.inverse y = .ok restored := by
  by_cases channels : y.shape.channels = plan.outChannels
  · rw [follows.inverse_decode consistent full channels,
      follows.inverseTrace_eq consistent full channels]
    refine ⟨fun fault => by simp only [reduceCtorEq], ?_⟩
    intro trace traced
    cases traced
    exact ⟨List.length_scanr, List.getLast?_scanr, _, _, List.head?_scanr,
      follows.leave_decode consistent full channels, rfl⟩
  · obtain ⟨cause, run, traced⟩ := follows.inverse_refuses consistent ends full channels
    rw [run, traced]
    simp only [Except.error.injEq]
    refine ⟨fun _ => trivial, ?_⟩
    intro trace traced
    cases traced

end Branch

namespace NetworkConfig

variable {config : NetworkConfig} {plan : Plan}

/-- A trace and the run without it succeed together or are refused with the same
fault. The trace of the way there begins behind the entrance and ends with the
features; the trace of the way back ends with the features it was given and begins
with what the entrance takes back to the sample. -/
theorem Builds.traces_agree (builds : config.Builds plan) {weights : Weights}
    (fits : weights.Fits plan) {x y : Tensor Single} (x_full : x.shape.IsFull)
    (y_full : y.shape.IsFull) :
    ((∀ fault, (Network.mk plan weights).branch.forward x = .error fault ↔
        (Network.mk plan weights).branch.forwardTrace x = .error fault) ∧
      ∀ trace, (Network.mk plan weights).branch.forwardTrace x = .ok trace →
        trace.length = (Network.mk plan weights).branch.blocks.length + 1 ∧
          ∃ entered features, (Network.mk plan weights).branch.psi.forward x = .ok entered ∧
            trace.head? = some entered ∧
            (Network.mk plan weights).branch.forward x = .ok features ∧
            trace.getLast? = some features) ∧
      (∀ fault, (Network.mk plan weights).branch.inverse y = .error fault ↔
        (Network.mk plan weights).branch.inverseTrace y = .error fault) ∧
      ∀ trace, (Network.mk plan weights).branch.inverseTrace y = .ok trace →
        trace.length = (Network.mk plan weights).branch.blocks.length + 1 ∧
          trace.getLast? = some y ∧
          ∃ entered restored, trace.head? = some entered ∧
            (Network.mk plan weights).branch.psi.inverse entered = .ok restored ∧
            (Network.mk plan weights).branch.inverse y = .ok restored := by
  have follows := Network.follows_branch fits
  obtain ⟨last, ends, -⟩ := builds.features_eq
  exact ⟨follows.forward_traced builds.consistent x_full,
    follows.inverse_traced builds.consistent ends y_full⟩

theorem traces_agree_small :
    small.Builds small.planned ∧
      (∃ trace features, smallNetwork.branch.forwardTrace (smallInput .one) = .ok trace ∧
        trace.length = 3 ∧ smallNetwork.branch.forward (smallInput .one) = .ok features ∧
          trace.getLast? = some features) ∧
        ∃ trace restored,
          smallNetwork.branch.inverseTrace (Tensor.constant ⟨2, 16, 3, 1⟩ .one) = .ok trace ∧
            trace.length = 3 ∧
            smallNetwork.branch.inverse (Tensor.constant ⟨2, 16, 3, 1⟩ .one) = .ok restored := by
  have sample : (smallInput Single.one).shape.IsFull := by decide
  have features : (Tensor.constant ⟨2, 16, 3, 1⟩ Single.one).shape.IsFull := by decide
  have follows := Network.follows_branch fits_smallNetwork
  obtain ⟨⟨-, there⟩, -, back⟩ :=
    builds_small.traces_agree fits_smallNetwork sample features
  refine ⟨builds_small, ?_, ?_⟩
  · have traced := follows.forwardTrace_eq builds_small.consistent Nat.one_pos
      (show (smallInput Single.one).shape = _ from rfl)
    obtain ⟨length, _, reached, -, -, runs, ends⟩ := there _ traced
    exact ⟨_, reached, traced, length, runs, ends⟩
  · have traced := follows.inverseTrace_eq builds_small.consistent features rfl
    obtain ⟨length, -, _, restored, -, -, runs⟩ := back _ traced
    exact ⟨_, restored, traced, length, runs⟩

/-- The way back from where a traced run has led has a trace too, and the two line
up: they have the same shapes and the same end, and every entry of the way there is
what the block at its place has received. Over a commutative group they are the
same list. -/
theorem Builds.traces_line_up (builds : config.Builds plan) :
    (∀ (weights : Weights) (batch : Nat) (x : Tensor Single), weights.Fits plan → 1 ≤ batch →
      x.shape = config.input.batched batch →
        ∃ there back features,
          (Network.mk plan weights).branch.forwardTrace x = .ok there ∧
            there.getLast? = some features ∧
            (Network.mk plan weights).branch.inverseTrace features = .ok back ∧
            back.map (·.shape) = there.map (·.shape) ∧ back.getLast? = some features ∧
            ∀ place, place ≤ (Network.mk plan weights).branch.blocks.length →
              ∃ pair merged, (Network.mk plan weights).branch.received x place = .ok pair ∧
                pair.merge = .ok merged ∧ there[place]? = some merged) ∧
      ∀ {β : Type u} [AddCommGroup β] (branch : Branch β) (batch : Nat) (x : Tensor β),
        branch.Follows plan → 1 ≤ batch → x.shape = config.input.batched batch →
          ∃ there features, branch.forwardTrace x = .ok there ∧ there.getLast? = some features ∧
            branch.inverseTrace features = .ok there ∧
            ∀ place, place ≤ branch.blocks.length →
              ∃ pair merged, branch.received x place = .ok pair ∧ pair.merge = .ok merged ∧
                there[place]? = some merged := by
  have consistent := builds.consistent
  rw [← builds.input_eq]
  refine ⟨?_, ?_⟩
  · intro weights batch x fits some samples
    have follows := Network.follows_branch fits
    have runs := follows.runs consistent some
    have entered := follows.shape_gather consistent samples
    have features := follows.shape_encode consistent some samples
    have full := features ▸ consistent.full_features some
    refine ⟨_, _, _, follows.forwardTrace_eq consistent some samples, List.getLast?_scanl,
      follows.inverseTrace_eq consistent full (congrArg Shape.channels features), ?_,
      List.getLast?_scanr, fun place bound => follows.received_eq consistent some samples bound⟩
    rw [Branch.shapes_advances runs entered]
    exact Branch.shapes_retreats runs (features.trans (follows.output_eq consistent).symm)
  · intro β _ branch batch x follows some samples
    have features := follows.shape_encode consistent some samples
    have full := features ▸ consistent.full_features some
    refine ⟨_, _, follows.forwardTrace_eq consistent some samples, List.getLast?_scanl, ?_,
      fun place bound => follows.received_eq consistent some samples bound⟩
    have same := Branch.retreats_advanceAll (follows.runs consistent some)
      (follows.shape_gather consistent samples)
    exact (follows.inverseTrace_eq consistent full (congrArg Shape.channels features)).trans
      (congrArg Except.ok same)

theorem traces_line_up_small :
    small.Builds small.planned ∧
      (∃ there back features, smallNetwork.branch.forwardTrace (smallInput .one) = .ok there ∧
        there.getLast? = some features ∧ smallNetwork.branch.inverseTrace features = .ok back ∧
          back.map (·.shape) = there.map (·.shape)) ∧
        ∃ there features,
          (Branch.repeating small.planned).forwardTrace (smallInput (5 : Int)) = .ok there ∧
            there.getLast? = some features ∧
              (Branch.repeating small.planned).inverseTrace features = .ok there := by
  have follows : (Branch.repeating small.planned : Branch Int).Follows small.planned :=
    Branch.follows_repeating small.planned
  obtain ⟨rounded, exact_sums⟩ := builds_small.traces_line_up
  obtain ⟨there, back, features, forth, ends, again, shapes, -⟩ :=
    rounded _ 1 (smallInput .one) fits_smallNetwork (Nat.le_refl 1) rfl
  obtain ⟨same, reached, through, last, undone, -⟩ :=
    exact_sums _ 1 (smallInput (5 : Int)) follows (Nat.le_refl 1) rfl
  exact ⟨builds_small, ⟨there, back, features, forth, ends, again, shapes⟩, same, reached, through,
    last, undone⟩

end NetworkConfig

end InvertibleNet
