/-
# How much a network stores

The size of a network is counted on its weights, layer by layer, and the layers take
their widths from halves that may be padded and from a division by the multiplier. For
weights that hold one value for every place of a plan the count is one expression in the
blocks of the plan, its classes and the multiplier. What the values are plays no part,
and neither does anything else that was configured.
-/

import InvertibleNet.Proofs.Network.Consistency
import InvertibleNet.Proofs.Network.Weights

namespace InvertibleNet

/-! ## The count in closed form -/

/-- Channels of the half that a sound block feeds its residual map. -/
def BlockSpec.plainHalf (spec : BlockSpec) : Nat :=
  if spec.stride = 1 then spec.outChannels else spec.inChannels / 2

/-- Values that the block at a place of a schedule stores: three kernels without a bias and
four values for every channel that is normalised. Nothing stands in front of the first
block. -/
def BlockSpec.storage (multiplier place : Nat) (spec : BlockSpec) : Nat :=
  let half := spec.plainHalf
  let width := spec.outChannels / multiplier
  9 * width * (half + width + spec.outChannels) + 8 * width + if place = 0 then 0 else 4 * half

/-- Values that a network of a schedule stores, its classifier included. -/
def Schedule.storage (multiplier classes : Nat) (specs : List BlockSpec) : Nat :=
  let features := 2 * specs.getLast?.elim 0 (·.outChannels)
  (specs.mapIdx (BlockSpec.storage multiplier)).sum + 4 * features + features * classes + classes

/-! ## Weights with a value for every place -/

/-- Whether a normalisation keeps its four values for each of so many channels. -/
structure Norm.Covers (norm : Norm) (channels : Nat) : Prop where
  gamma : norm.gamma.size = channels
  beta : norm.beta.size = channels
  mean : norm.mean.size = channels
  variance : norm.variance.size = channels

theorem Norm.Covers.parameterCount {norm : Norm} {channels : Nat} (covers : norm.Covers channels) :
    norm.parameterCount = 4 * channels := by
  unfold Norm.parameterCount
  rw [covers.gamma, covers.beta, covers.mean, covers.variance]
  omega

/-- Whether a kernel has nine weights for every pair of channels. -/
def Kernel.Covers (kernel : Kernel) (outChannels inChannels : Nat) : Prop :=
  kernel.weights.size = outChannels * inChannels * 9

/-- Whether the layers of a residual map have a value for every place they should have. -/
structure Bottleneck.Covers (bottleneck : Bottleneck) (spec : BlockSpec) (multiplier : Nat) :
    Prop where
  prologue : if spec.isFirst then bottleneck.prologue = none else
    ∃ norm, bottleneck.prologue = some norm ∧ norm.Covers spec.halfChannels
  enter : bottleneck.enter.Covers (spec.bottleneckWidth multiplier) spec.halfChannels
  enterNorm : bottleneck.enterNorm.Covers (spec.bottleneckWidth multiplier)
  inner : bottleneck.inner.Covers (spec.bottleneckWidth multiplier)
    (spec.bottleneckWidth multiplier)
  innerNorm : bottleneck.innerNorm.Covers (spec.bottleneckWidth multiplier)
  leave : bottleneck.leave.Covers spec.outChannels (spec.bottleneckWidth multiplier)

/-- Whether weights have a value for every place of a plan. -/
structure Weights.Covers (weights : Weights) (plan : Plan) (multiplier : Nat) : Prop where
  bottlenecks : List.Forall₂ (fun (bottleneck : Bottleneck) (spec : BlockSpec) =>
    bottleneck.Covers spec multiplier) weights.bottlenecks plan.specs
  norm : weights.norm.Covers plan.outChannels
  linear : weights.linear.weights.size = plan.outChannels * plan.classes
  bias : weights.linear.bias.size = plan.classes

/-! ## Counting -/

/-- Values of the layers of a block, by what the block itself says of them. -/
def BlockSpec.layerStorage (multiplier : Nat) (spec : BlockSpec) : Nat :=
  let half := spec.halfChannels
  let width := spec.bottleneckWidth multiplier
  9 * width * (half + width + spec.outChannels) + 8 * width + if spec.isFirst then 0 else 4 * half

theorem Bottleneck.Covers.parameterCount {bottleneck : Bottleneck} {spec : BlockSpec}
    {multiplier : Nat} (covers : bottleneck.Covers spec multiplier) :
    bottleneck.parameterCount = spec.layerStorage multiplier := by
  obtain ⟨prologue, enter, enterNorm, inner, innerNorm, leave⟩ := covers
  have front : (bottleneck.prologue.map (·.parameterCount)).getD 0 =
      if spec.isFirst then 0 else 4 * spec.halfChannels := by
    split at prologue
    · rw [prologue]
      simp [*]
    · obtain ⟨norm, found, covers⟩ := prologue
      rw [found]
      simp [covers.parameterCount, *]
  unfold Bottleneck.parameterCount BlockSpec.layerStorage
  rw [front, enter, enterNorm.parameterCount, inner, innerNorm.parameterCount, leave]
  ring

theorem Count.total_eq_sum (values : List Nat) : total values = values.sum := by
  induction values with
  | nil => rfl
  | cons value values ih => rw [total, ih, List.sum_cons]

theorem sum_parameterCount {bottlenecks : List Bottleneck} {specs : List BlockSpec}
    {multiplier : Nat} (covers : List.Forall₂ (fun bottleneck spec =>
      Bottleneck.Covers bottleneck spec multiplier) bottlenecks specs) :
    (bottlenecks.map (·.parameterCount)).sum = (specs.map (·.layerStorage multiplier)).sum := by
  induction covers with
  | nil => rfl
  | cons here _ ih =>
      rw [List.map_cons, List.map_cons, List.sum_cons, List.sum_cons, here.parameterCount, ih]

theorem Weights.Covers.parameterCount {weights : Weights} {plan : Plan} {multiplier : Nat}
    (covers : weights.Covers plan multiplier) :
    (Network.mk plan weights).parameterCount =
      (plan.specs.map (·.layerStorage multiplier)).sum + 4 * plan.outChannels +
        plan.outChannels * plan.classes + plan.classes := by
  obtain ⟨bottlenecks, norm, linear, bias⟩ := covers
  unfold Network.parameterCount Linear.parameterCount
  rw [Count.total_eq_sum, sum_parameterCount bottlenecks, norm.parameterCount, linear, bias,
    Nat.add_assoc _ _ plan.classes]

/-! ## Drawn weights -/

/-- A source whose layers have a value for every place. -/
structure WeightSource.Covers (source : WeightSource Id) : Prop where
  kernel : ∀ outChannels inChannels : Nat,
    (source.kernel outChannels inChannels).run.Covers outChannels inChannels
  norm : ∀ channels : Nat, (source.norm channels).run.Covers channels
  linear : ∀ features classes : Nat,
    (source.linear features classes).run.weights.size = features * classes ∧
      (source.linear features classes).run.bias.size = classes

/-- Writing into an array does not resize it, however often. -/
theorem size_fold_setIfInBounds {α : Type} (place : Nat → Nat) (value : α) (values : Array α)
    (count : Nat) :
    (count.fold (fun index _ values => values.setIfInBounds (place index) value) values).size =
      values.size := by
  induction count with
  | zero => rfl
  | succ count ih => rw [Nat.fold_succ, Array.size_setIfInBounds, ih]

theorem WeightSource.covers_fresh : WeightSource.fresh.Covers where
  kernel outChannels inChannels := by
    show (Kernel.fresh outChannels inChannels).weights.size = _
    unfold Kernel.fresh
    rw [size_fold_setIfInBounds, Array.size_replicate]
  norm _ := ⟨Array.size_replicate, Array.size_replicate, Array.size_replicate, Array.size_replicate⟩
  linear _ _ := ⟨Array.size_replicate, Array.size_replicate⟩

/-- A residual map is drawn layer by layer. -/
theorem Bottleneck.run_draw (source : WeightSource Id) (spec : BlockSpec) (multiplier : Nat) :
    (Bottleneck.draw source spec multiplier).run =
      { prologue := if spec.isFirst then none else some (source.norm spec.halfChannels).run
        enter := (source.kernel (spec.bottleneckWidth multiplier) spec.halfChannels).run
        enterNorm := (source.norm (spec.bottleneckWidth multiplier)).run
        inner := (source.kernel (spec.bottleneckWidth multiplier)
          (spec.bottleneckWidth multiplier)).run
        innerNorm := (source.norm (spec.bottleneckWidth multiplier)).run
        leave := (source.kernel spec.outChannels (spec.bottleneckWidth multiplier)).run } := by
  unfold draw
  cases spec.isFirst with
  | true => rfl
  | false => rfl

theorem Bottleneck.covers_draw {source : WeightSource Id} (covers : source.Covers)
    (spec : BlockSpec) (multiplier : Nat) :
    (Bottleneck.draw source spec multiplier).run.Covers spec multiplier := by
  rw [run_draw]
  refine ⟨?_, covers.kernel _ _, covers.norm _, covers.kernel _ _, covers.norm _,
    covers.kernel _ _⟩
  split
  · rfl
  · exact ⟨_, rfl, covers.norm _⟩

/-- Drawn weights have a value for every place of the plan they were drawn for. -/
theorem Weights.covers_draw {source : WeightSource Id} (covers : source.Covers) (plan : Plan)
    (multiplier : Nat) : (Weights.draw source plan multiplier).run.Covers plan multiplier where
  bottlenecks := by
    rw [run_bottlenecks_draw, List.forall₂_map_left_iff, List.forall₂_same]
    exact fun spec _ => Bottleneck.covers_draw covers spec multiplier
  norm := covers.norm _
  linear := (covers.linear _ _).1
  bias := (covers.linear _ _).2

/-! ## The blocks of a plan -/

/-- The half of a sound block is as wide as its output at stride one, and half as wide as
its input at stride two. -/
theorem BlockSpec.Sound.halfChannels_eq {spec : BlockSpec} (sound : spec.Sound) :
    spec.halfChannels = spec.plainHalf := by
  obtain ⟨-, one | two, halves, area⟩ := sound
  · rw [plainHalf, if_pos one]
    simpa [one] using area
  · rw [pad_of_stride_two two] at halves
    rw [plainHalf, if_neg (by omega)]
    omega

theorem BlockSpec.bottleneckWidth_eq (spec : BlockSpec) (multiplier : Nat) :
    spec.bottleneckWidth multiplier = spec.outChannels / multiplier := by
  unfold bottleneckWidth
  split
  · next zero => rw [zero, Nat.div_zero]
  · rfl

namespace NetworkConfig

variable {config : NetworkConfig} {plan : Plan}

theorem Schedulable.numbers (schedulable : config.Schedulable) {place : Nat} {spec : BlockSpec}
    (here : config.specs[place]? = some spec) :
    spec.index = place ∧ (spec.isFirst = true ↔ place = 0) :=
  (Schedule.spellsOut_chain schedulable.listed config.enteringChannels).numbers place spec here

theorem Schedulable.multiplier_pos (schedulable : config.Schedulable) : 1 ≤ config.multiplier := by
  have last := List.getLast_mem (specs_ne_nil schedulable.stages)
  have room := schedulable.listed.room (Schedule.outChannels_mem last)
  exact ((BlockSpec.fault?_eq_none_iff room).mp (schedulable.blocks _ last)).2.1

/-- Only the place of a block decides whether anything stands in front of it. -/
theorem Schedulable.layerStorage_eq (schedulable : config.Schedulable) {place : Nat}
    {spec : BlockSpec} (here : config.specs[place]? = some spec) :
    spec.layerStorage config.multiplier = spec.storage config.multiplier place := by
  have sound := schedulable.sound spec (List.mem_of_getElem? here)
  have first := (schedulable.numbers here).2
  unfold BlockSpec.layerStorage BlockSpec.storage
  rw [sound.halfChannels_eq, spec.bottleneckWidth_eq]
  simp only [first]

theorem Schedulable.mapIdx_storage (schedulable : config.Schedulable) :
    config.specs.mapIdx (BlockSpec.storage config.multiplier) =
      config.specs.map (·.layerStorage config.multiplier) := by
  apply List.ext_getElem?
  intro place
  rw [List.getElem?_mapIdx, List.getElem?_map]
  cases here : config.specs[place]? with
  | none => rfl
  | some spec => exact congrArg some (schedulable.layerStorage_eq here).symm

/-- The closed form, by what the blocks say of themselves. -/
theorem Schedulable.storage_eq (schedulable : config.Schedulable) :
    Schedule.storage config.multiplier config.classes config.specs =
      (config.specs.map (·.layerStorage config.multiplier)).sum + 4 * config.planned.outChannels +
        config.planned.outChannels * config.classes + config.classes := by
  unfold Schedule.storage
  rw [schedulable.mapIdx_storage]
  rfl

/-- The count of complete weights is the closed form of their plan. -/
theorem Builds.parameterCount_eq (builds : config.Builds plan) {weights : Weights}
    (covers : weights.Covers plan config.multiplier) :
    (Network.mk plan weights).parameterCount =
      Schedule.storage config.multiplier config.classes plan.specs := by
  obtain ⟨⟨plannable, -⟩, rfl⟩ := builds_iff.mp builds
  exact covers.parameterCount.trans plannable.schedulable.storage_eq.symm

end NetworkConfig

end InvertibleNet
