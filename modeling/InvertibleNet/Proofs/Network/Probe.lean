/-
# What a probe reports

A network that is built can be probed with every batch whose features can exist, and
the report has one figure for every block and one for the whole way. The figure
of the first block is measured behind the entrance, the one of the whole way in front
of it and the other way round; they are the same to the last bit, because neither
matters to a distance. A batch of one seed begins with every shorter one, so probing
fewer samples reports figures that are nowhere larger.
-/

import InvertibleNet.Probe
import InvertibleNet.Proofs.Coupling.Reconstruction
import InvertibleNet.Proofs.Network.Batch
import InvertibleNet.Proofs.Network.Memory
import InvertibleNet.Proofs.Random.Batch

namespace InvertibleNet

open Outcome

/-! ## Measuring -/

/-- Full tensors of the same shapes are measured by their distances. -/
theorem measure_eq (specs : List BlockSpec) {forward backward : List (Tensor Single)}
    (shapes : forward.map (·.shape) = backward.map (·.shape))
    (full : ∀ shape ∈ forward.map (·.shape), shape.IsFull) :
    measure specs forward backward =
      .ok (List.zipWith BlockError.mk specs (List.zipWith Tensor.distance forward backward)) := by
  induction specs generalizing forward backward with
  | nil => rfl
  | cons spec specs ih =>
      cases forward with
      | nil => rfl
      | cons received forward =>
          cases backward with
          | nil => rfl
          | cons reconstructed backward =>
              obtain ⟨here, rest⟩ := List.cons.inj shapes
              obtain ⟨whole, later⟩ := List.forall_mem_cons.mp full
              have figure := Tensor.maxAbsError_eq_distance here whole
              have behind := ih rest later
              simp only [measure, List.zip_cons_cons, List.mapM_cons, bind, Except.bind, figure]
                at behind ⊢
              rw [behind]
              rfl

theorem BlockError.noLarger_zipWith (specs : List BlockSpec) {figures others : List Single}
    (below : List.Forall₂ Single.NoLarger figures others) :
    List.Forall₂ (fun less figure : BlockError =>
        less.spec = figure.spec ∧ less.maxAbsError.NoLarger figure.maxAbsError)
      (List.zipWith BlockError.mk specs figures) (List.zipWith BlockError.mk specs others) := by
  induction specs generalizing figures others with
  | nil => exact .nil
  | cons spec specs ih =>
      cases below with
      | nil => exact .nil
      | cons here rest => exact .cons ⟨rfl, here⟩ (ih rest)

namespace Report

/-- Of two measurements the worse one is one of them, and no better than either. -/
theorem worseOf_spec (first second : BlockError) :
    (worseOf first second = first ∨ worseOf first second = second) ∧
      first.maxAbsError.rank ≤ (worseOf first second).maxAbsError.rank ∧
        second.maxAbsError.rank ≤ (worseOf first second).maxAbsError.rank := by
  unfold worseOf
  split
  · next below => exact ⟨.inl rfl, Int.le_refl _, Int.le_of_lt below⟩
  · next above => exact ⟨.inr rfl, Int.not_lt.mp above, Int.le_refl _⟩

theorem foldl_worseOf_spec (first : BlockError) (blocks : List BlockError) :
    blocks.foldl worseOf first ∈ first :: blocks ∧
      ∀ block ∈ first :: blocks,
        block.maxAbsError.rank ≤ (blocks.foldl worseOf first).maxAbsError.rank := by
  induction blocks generalizing first with
  | nil =>
      refine ⟨List.mem_singleton_self first, fun block member => ?_⟩
      cases List.mem_singleton.mp member
      exact Int.le_refl _
  | cons block blocks ih =>
      obtain ⟨found, bound⟩ := ih (worseOf first block)
      obtain ⟨one, left, right⟩ := worseOf_spec first block
      obtain ⟨worse, rest⟩ := List.forall_mem_cons.mp bound
      refine ⟨?_, ?_⟩
      · rcases List.mem_cons.mp found with same | member
        · show blocks.foldl worseOf (worseOf first block) ∈ _
          rw [same]
          rcases one with kept | kept
          · rw [kept]
            exact List.mem_cons_self
          · rw [kept]
            exact List.mem_cons_of_mem _ List.mem_cons_self
        · exact List.mem_cons_of_mem _ (List.mem_cons_of_mem _ member)
      · exact List.forall_mem_cons.mpr ⟨Int.le_trans left worse,
          List.forall_mem_cons.mpr ⟨Int.le_trans right worse, rest⟩⟩

/-- A report that is no further off passes wherever the other one does. -/
theorem passed_of_noLarger {narrow wide : Report} (tolerance : narrow.tolerance = wide.tolerance)
    (below : narrow.endToEnd.NoLarger wide.endToEnd) (passes : wide.passed = true) :
    narrow.passed = true := by
  obtain ⟨finite, less⟩ := (Bool.and_eq_true _ _).mp passes
  obtain ⟨finite, less⟩ := below.finite_less finite less
  exact (Bool.and_eq_true _ _).mpr ⟨finite, tolerance ▸ less⟩

/-- Where there are blocks there is a worst one, and none is further off. -/
theorem exists_worst {report : Report} {first : BlockError}
    (head : report.blocks.head? = some first) :
    ∃ worst, report.worst? = some worst ∧ worst ∈ report.blocks ∧
      ∀ block ∈ report.blocks, block.maxAbsError.rank ≤ worst.maxAbsError.rank := by
  obtain ⟨rest, blocks⟩ := List.head?_eq_some_iff.mp head
  rw [worst?, blocks]
  exact ⟨_, rfl, foldl_worseOf_spec first rest⟩

end Report

/-! ## The figures of a probe -/

namespace Branch

variable {branch : Branch Single} {plan : Plan} {batch : Nat}

/-- How far every block is off on the way back of an input, the features last. -/
def figures (branch : Branch Single) (x : Tensor Single) : List Single :=
  drift branch.blocks (branch.psi.gather x) (branch.encode x)

/-- How far the whole way back is off. -/
def loss (branch : Branch Single) (x : Tensor Single) : Single :=
  (branch.decode (branch.encode x)).distance x

/-- The traces of an input have the same shapes, none of which has an empty axis. -/
theorem Follows.shapes_traces (follows : branch.Follows plan) (consistent : plan.Consistent)
    (some : 0 < batch) {x : Tensor Single} (samples : x.shape = plan.geometry.input.batched batch) :
    (advances branch.blocks (branch.psi.gather x)).map (·.shape) =
        (retreats branch.blocks (branch.encode x)).map (·.shape) ∧
      ∀ shape ∈ (advances branch.blocks (branch.psi.gather x)).map (·.shape),
        shape.IsFull ∧ shape.batch = batch := by
  have runs := follows.runs consistent some
  have entered := follows.shape_gather consistent samples
  have features := follows.shape_encode consistent some samples
  rw [shapes_advances runs entered,
    shapes_retreats runs (features.trans (follows.output_eq consistent).symm)]
  exact ⟨rfl, full_along runs (consistent.full_entered some)⟩

/-- The first block is off by as much as the whole way. -/
theorem Follows.head_figures (follows : branch.Follows plan) (consistent : plan.Consistent)
    (some : 0 < batch) {x : Tensor Single} (samples : x.shape = plan.geometry.input.batched batch) :
    (branch.figures x).head? = .some (branch.loss x) := by
  have entered := follows.shape_gather consistent samples
  have features := follows.shape_encode consistent some samples
  have restored := follows.shape_decode consistent some features
  have shapes : x.shape = (branch.decode (branch.encode x)).shape := samples.trans restored.symm
  have full : x.shape.IsFull := samples ▸ consistent.full_samples some
  have again : branch.psi.gather (branch.decode (branch.encode x)) =
      retreatAll branch.blocks (branch.encode x) :=
    Psi.gather_scatter (follows.block_pos consistent) (follows.area_dvd consistent some features)
  have same : (branch.psi.gather x).distance (retreatAll branch.blocks (branch.encode x)) =
      branch.loss x := by
    rw [← again, Psi.distance_gather shapes full (follows.divides consistent samples),
      Tensor.distance_comm shapes]
    rfl
  rw [figures, drift, advances, retreats, List.head?_zipWith, List.head?_scanl, List.head?_scanr]
  exact congrArg Option.some same

/-- The samples in front of an input are off by no more than all of them, in every block
and on the whole way. -/
theorem Follows.figures_select_first (follows : branch.Follows plan) (consistent : plan.Consistent)
    (samplewise : branch.IsSamplewise) {front behind : Nat} (some : 0 < front) {x : Tensor Single}
    (samples : x.shape = plan.geometry.input.batched (front + behind)) :
    List.Forall₂ Single.NoLarger (branch.figures (x.select (.first front behind)))
        (branch.figures x) ∧
      (branch.loss (x.select (.first front behind))).NoLarger (branch.loss x) := by
  have more : 0 < front + behind := Nat.lt_add_right behind some
  have batch : x.shape.batch = front + behind := congrArg Shape.batch samples
  have runs := follows.runs consistent more
  have narrow := follows.runs consistent some
  have entered := follows.shape_gather consistent samples
  have features := follows.shape_encode consistent more samples
  have output := features.trans (follows.output_eq consistent).symm
  have selected : ((branch.encode x).select (.first front behind)).shape =
      Branch.output branch.blocks (plan.entered front) := by
    rw [Tensor.shape_select, features, follows.output_eq consistent]
    rfl
  have encoded : (branch.encode x).select (.first front behind) =
      branch.encode (x.select (.first front behind)) :=
    follows.select_encode consistent samplewise more samples
  have gathered : (branch.psi.gather x).select (.first front behind) =
      branch.psi.gather (x.select (.first front behind)) :=
    Psi.select_gather batch (follows.divides consistent samples)
  have there : (advances branch.blocks (branch.psi.gather x)).map
      (·.select (.first front behind)) = advances branch.blocks
        (branch.psi.gather (x.select (.first front behind))) := by
    rw [← gathered]
    exact select_advances runs samplewise rfl entered
  have back : (retreats branch.blocks (branch.encode x)).map (·.select (.first front behind)) =
      retreats branch.blocks (branch.encode (x.select (.first front behind))) := by
    rw [← encoded]
    exact select_retreats runs narrow samplewise rfl some output selected
  obtain ⟨shapes, full⟩ := follows.shapes_traces consistent more samples
  have figures : List.Forall₂ Single.NoLarger (branch.figures (x.select (.first front behind)))
      (branch.figures x) := by
    rw [Branch.figures, drift, ← there, ← back]
    exact distances_select_first some shapes full
  -- The whole way is off by as much as the first block, on some samples as on all.
  have first := follows.head_figures consistent more samples
  have front_samples : (x.select (.first front behind)).shape =
      plan.geometry.input.batched front := by
    rw [Tensor.shape_select, samples]
    rfl
  have front_first := follows.head_figures consistent some front_samples
  refine ⟨figures, ?_⟩
  obtain ⟨_, wide⟩ := List.head?_eq_some_iff.mp first
  obtain ⟨_, short⟩ := List.head?_eq_some_iff.mp front_first
  rw [wide, short] at figures
  exact (List.forall₂_cons.mp figures).1

end Branch

namespace Network

open Branch

variable {plan : Plan} {weights : Weights} {batch : Nat}

/-- What is reported of a batch that has been drawn. -/
def reported (network : Network) (batch seed : Nat) (tolerance : Single) (x : Tensor Single) :
    Report where
  batchSize := batch
  seed := seed
  tolerance := tolerance
  blocks := List.zipWith BlockError.mk network.plan.specs (network.branch.figures x)
  endToEnd := network.branch.loss x

/-- Once a batch is drawn only the way there can fail, and it does exactly if there is no
room for the features. -/
theorem probe_drawn (consistent : plan.Consistent) (fits : weights.Fits plan) (some : 0 < batch)
    {seed : Nat} {x : Tensor Single} (samples : x.shape = plan.geometry.input.batched batch)
    (room : 4 * x.shape.size < Count.signedLimit)
    (draws : randomBatch (plan.geometry.input.batched batch) seed.toUInt64 = .ok x)
    (tolerance : Single) :
    (Network.mk plan weights).probe batch seed tolerance =
      if 4 * (plan.features.batched batch).size < Count.signedLimit then
        .ok ((Network.mk plan weights).reported batch seed tolerance x)
      else .error (.breakdown .overflow) := by
  have follows := follows_branch fits
  have features := follows.shape_encode consistent some samples
  have returned := follows.shape_decode consistent some features
  have full := features ▸ consistent.full_features some
  obtain ⟨shapes, along⟩ := follows.shapes_traces consistent some samples
  have forward := follows.forwardTraceInMemory_eq consistent some samples room
  rw [follows.forwardTrace_eq consistent some samples] at forward
  have ends : (advances (Network.mk plan weights).branch.blocks
      ((Network.mk plan weights).branch.psi.gather x)).getLast?.getD x =
        (Network.mk plan weights).branch.encode x := by
    rw [advances, List.getLast?_scanl]
    rfl
  have backward := follows.inverseTrace_eq consistent full (congrArg Shape.channels features)
  have restored := follows.inverse_eq consistent some features
  have specs : (Network.mk plan weights).blocks.map (·.spec) = plan.specs :=
    (fits_of_mem_zipWith fits.bottlenecks).1
  have measured := measure_eq plan.specs shapes fun shape member => (along shape member).1
  have lost := Tensor.maxAbsError_eq_distance (returned.trans samples.symm)
    (returned ▸ consistent.full_samples some)
  simp only [SampleShape.batched] at draws
  split at forward
  · next enough =>
    rw [if_pos enough]
    simp only [probe, bind, Except.bind, draws, forward, ends, backward, specs, measured,
      restored, lost]
    rfl
  · next crowded =>
    rw [if_neg crowded]
    simp only [probe, bind, Except.bind, draws, forward]

/-- A network can be probed exactly where there is room for the features. -/
theorem probe_eq (consistent : plan.Consistent) (fits : weights.Fits plan) (some : 0 < batch)
    (seed : Nat) (tolerance : Single) :
    (Network.mk plan weights).probe batch seed tolerance =
      if 4 * (plan.features.batched batch).size < Count.signedLimit then
        .ok ((Network.mk plan weights).reported batch seed tolerance
          (.drawn (plan.geometry.input.batched batch) seed.toUInt64))
      else .error (.breakdown .overflow) := by
  have draws := randomBatch_eq (consistent.full_samples some) seed.toUInt64
  split at draws
  · next room => exact probe_drawn consistent fits some rfl room draws tolerance
  · next crowded =>
    -- The batch is not even drawn, and its features are no smaller.
    have larger := consistent.size_samples_le some
    rw [if_neg (by omega)]
    simp only [SampleShape.batched] at draws
    simp only [probe, bind, Except.bind, draws]

/-- A report has one figure to a block, in the order of the schedule, and the first one
is that of the whole way. -/
theorem blocks_reported (consistent : plan.Consistent) (fits : weights.Fits plan)
    (some : 0 < batch) (seed : Nat) (tolerance : Single) {x : Tensor Single}
    (samples : x.shape = plan.geometry.input.batched batch) {first : BlockSpec}
    (head : plan.specs.head? = .some first) :
    ((Network.mk plan weights).reported batch seed tolerance x).blocks.map (·.spec) =
        plan.specs ∧
      ((Network.mk plan weights).reported batch seed tolerance x).blocks.head? =
        .some ⟨first, (Network.mk plan weights).branch.loss x⟩ ∧
      ∀ block ∈ ((Network.mk plan weights).reported batch seed tolerance x).blocks,
        block.maxAbsError.IsMagnitude := by
  have follows := follows_branch fits
  obtain ⟨shapes, along⟩ := follows.shapes_traces consistent some samples
  refine ⟨?_, ?_, ?_⟩
  · have blocks : plan.specs.length = (Network.mk plan weights).branch.blocks.length := by
      rw [← follows.specs, List.length_map]
    have enough : plan.specs.length ≤ ((Network.mk plan weights).branch.figures x).length := by
      simp [figures, drift, advances, retreats, blocks]
    rw [reported, List.map_zipWith, ← List.map_uncurry_zip_eq_zipWith]
    exact List.map_fst_zip enough
  · rw [reported, List.head?_zipWith, head, follows.head_figures consistent some samples]
  · intro block member
    rw [reported, ← List.map_uncurry_zip_eq_zipWith] at member
    obtain ⟨pair, inside, rfl⟩ := List.mem_map.mp member
    exact isMagnitude_distances shapes (fun shape found => (along shape found).1) _
      (List.of_mem_zip inside).2

end Network

namespace NetworkConfig

variable {config : NetworkConfig} {plan : Plan}

/-- A probe of a network reports one figure for every block of the schedule, wherever there
is room for the features. Nothing that a block pads or hands on is larger than these. The
figure of the first block is that of the whole way to the last bit, so the worst block is at
least as far off. -/
theorem Builds.probe_total (builds : config.Builds plan) {weights : Weights}
    (fits : weights.Fits plan) {batch : Nat} (some : 1 ≤ batch)
    (room : 4 * (plan.features.batched batch).size < Count.signedLimit) (seed : Nat)
    (tolerance : Single) :
    config.schedule = .ok plan.specs ∧
      ∃ report first worst,
        (Network.mk plan weights).probe batch seed tolerance = .ok report ∧
          report.blocks.map (·.spec) = plan.specs ∧
          report.blocks.head? = .some first ∧ first.maxAbsError = report.endToEnd ∧
          report.worst? = .some worst ∧ worst ∈ report.blocks ∧
          report.endToEnd.rank ≤ worst.maxAbsError.rank ∧
          (worst.maxAbsError.isNaN = false →
            report.endToEnd.atMost worst.maxAbsError = true) := by
  have consistent := builds.consistent
  obtain ⟨⟨plannable, -⟩, planned⟩ := builds_iff.mp builds
  have scheduled : config.schedule = .ok plan.specs := by
    rw [planned]
    exact (schedule_eq_ok_iff plannable.geometry).mpr ⟨⟨plannable.stages, plannable.blocks⟩, rfl⟩
  have some_block : plan.specs ≠ [] := by
    rw [planned]
    exact Schedule.chain_flattened_ne_nil plannable.stages
  have head := List.head?_eq_some_head some_block
  have probed := Network.probe_eq consistent fits some seed tolerance
  rw [if_pos room] at probed
  obtain ⟨specs, first, magnitudes⟩ := Network.blocks_reported consistent fits some seed tolerance
    (show (Tensor.drawn (plan.geometry.input.batched batch) seed.toUInt64).shape = _ from rfl) head
  obtain ⟨worst, found, member, bound⟩ := Report.exists_worst first
  have front := List.mem_of_mem_head? first
  have below := bound _ front
  refine ⟨scheduled, _, _, worst, probed, specs, first, rfl, found, member, below, ?_⟩
  intro number
  have order : Single.NoLarger _ _ :=
    .of_rank_le (magnitudes _ front) (magnitudes _ member) below
  exact order.atMost number

theorem probe_total_small :
    small.Builds small.planned ∧
      4 * (small.planned.features.batched 5).size < Count.signedLimit ∧
      ∃ report first worst, smallNetwork.probe 5 1 .one = .ok report ∧
        report.blocks.head? = some first ∧ first.maxAbsError = report.endToEnd ∧
        report.worst? = some worst ∧ report.endToEnd.rank ≤ worst.maxAbsError.rank := by
  have room : 4 * (small.planned.features.batched 5).size < Count.signedLimit := by decide
  obtain ⟨-, report, first, worst, probed, -, head, same, found, -, below, -⟩ :=
    builds_small.probe_total fits_smallNetwork (by decide : 1 ≤ 5) room 1 .one
  exact ⟨builds_small, room, report, first, worst, probed, head, same, found, below⟩

-- Room for the batch is not enough: the first block may pad it to more than an array can hold.
example : 4 * (small.input.batched (2 ^ 57)).size < Count.signedLimit ∧
    ¬ 4 * (small.planned.features.batched (2 ^ 57)).size < Count.signedLimit := by
  decide

/-- A batch may have too many bytes although its values can be counted. -/
theorem probe_breaks_off_small :
    small.Builds small.planned ∧ (small.input.batched (2 ^ 60)).size < Count.limit ∧
      smallNetwork.probe (2 ^ 60) 1 .one = .error (.breakdown .overflow) := by
  have probed := Network.probe_eq builds_small.consistent fits_smallNetwork
    (by decide : 0 < 2 ^ 60) 1 .one
  have crowded : ¬ 4 * (small.planned.features.batched (2 ^ 60)).size < Count.signedLimit := by
    decide
  rw [if_neg crowded] at probed
  exact ⟨builds_small, by decide, probed⟩

/-- Of two probes of one seed the shorter one reports figures that are nowhere larger,
and it passes wherever the longer one does. What it draws is the front of what the
longer one draws, and the longer one is possible exactly where there is room for its
features. -/
theorem Builds.probe_monotone (builds : config.Builds plan) {weights : Weights}
    (fits : weights.Fits plan) {fewer more : Nat} (some : 1 ≤ fewer) (ordered : fewer ≤ more)
    (seed : Nat) (tolerance : Single) :
    (∀ wide, randomBatch (config.input.batched more) seed.toUInt64 = .ok wide →
        randomBatch (config.input.batched fewer) seed.toUInt64 =
          .ok (wide.select (.first fewer (more - fewer)))) ∧
      ((∃ wide, (Network.mk plan weights).probe more seed tolerance = .ok wide) ↔
        4 * (plan.features.batched more).size < Count.signedLimit) ∧
      ∀ wide, (Network.mk plan weights).probe more seed tolerance = .ok wide →
        ∃ narrow, (Network.mk plan weights).probe fewer seed tolerance = .ok narrow ∧
          List.Forall₂ (fun less figure : BlockError => less.spec = figure.spec ∧
              (figure.maxAbsError.isNaN = false →
                less.maxAbsError.atMost figure.maxAbsError = true))
            narrow.blocks wide.blocks ∧
          (wide.endToEnd.isNaN = false → narrow.endToEnd.atMost wide.endToEnd = true) ∧
          (wide.passed = true → narrow.passed = true) := by
  obtain ⟨behind, rfl⟩ := Nat.exists_eq_add_of_le ordered
  have consistent := builds.consistent
  have follows := Network.follows_branch fits
  have more : 1 ≤ fewer + behind := Nat.le_add_right_of_le some
  have probed := Network.probe_eq consistent fits more seed tolerance
  rw [Nat.add_sub_cancel_left, ← builds.input_eq]
  refine ⟨?_, ?_, ?_⟩
  · intro wide draws
    exact randomBatch_select_first some consistent.input.2 draws
  · rw [probed]
    split
    · next room => exact iff_of_true ⟨_, rfl⟩ room
    · next none => exact iff_of_false (fun found => by simp at found) none
  · intro wide reports
    rw [probed] at reports
    split at reports
    · next room =>
      cases reports
      let x : Tensor Single :=
        .drawn (plan.geometry.input.batched (fewer + behind)) seed.toUInt64
      have front : x.select (.first fewer behind) =
          .drawn (plan.geometry.input.batched fewer) seed.toUInt64 :=
        Tensor.select_first_drawn ..
      have shorter := Network.probe_eq consistent fits some seed tolerance
      have narrower := plan.size_features_le (Nat.le_add_right fewer behind)
      rw [if_pos (by omega), ← front] at shorter
      obtain ⟨figures, loss⟩ := follows.figures_select_first consistent
        (Network.samplewise_branch plan weights) some (show x.shape = _ from rfl)
      refine ⟨_, shorter, ?_, loss.atMost, Report.passed_of_noLarger rfl loss⟩
      refine (BlockError.noLarger_zipWith plan.specs figures).imp ?_
      intro less figure below
      exact ⟨below.1, below.2.atMost⟩
    · cases reports

theorem probe_monotone_small :
    small.Builds small.planned ∧
      ∃ wide narrow, smallNetwork.probe 3 1 .one = .ok wide ∧
        smallNetwork.probe 2 1 .one = .ok narrow ∧
        (wide.endToEnd.isNaN = false → narrow.endToEnd.atMost wide.endToEnd = true) ∧
        (wide.passed = true → narrow.passed = true) := by
  obtain ⟨-, possible, reports⟩ := builds_small.probe_monotone fits_smallNetwork
    (by decide : 1 ≤ 2) (by decide : 2 ≤ 3) 1 .one
  obtain ⟨wide, probed⟩ := possible.mpr (by decide)
  obtain ⟨narrow, shorter, -, loss, passes⟩ := reports wide probed
  exact ⟨builds_small, wide, narrow, probed, shorter, loss, passes⟩

end NetworkConfig

end InvertibleNet
