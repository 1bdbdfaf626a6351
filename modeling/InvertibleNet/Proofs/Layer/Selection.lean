/-
# Layers treat every sample alone

A normalisation and a rectifier look at one entry, a convolution at the entries of
one sample, and so does the choice between its sparse and its full kernel, which
depends on whether the whole sample is finite. So the residual map of a block
commutes with every selection of samples, and the scores of a batch are those of
its parts, one behind the other.
-/

import InvertibleNet.Layer.Head
import InvertibleNet.Proofs.Tensor.Selection
import InvertibleNet.Proofs.Tensor.Vacancy

namespace InvertibleNet

/-- A place inside a sample is an entry, the same one in every sample. -/
theorem Shape.exists_offset_of_place {shape : Shape} {place : Nat}
    (bound : place < shape.sampleSize) :
    ∃ channel row column, channel < shape.channels ∧ row < shape.height ∧ column < shape.width ∧
      ∀ sample, sample * shape.sampleSize + place = shape.offset sample channel row column := by
  have single : place < Shape.size { shape with batch := 1 } := by
    rw [size, Nat.one_mul]
    exact bound
  obtain ⟨sample, channel, row, column, ⟨only, rest⟩, rfl⟩ := exists_offset single
  obtain rfl := Nat.lt_one_iff.mp only
  refine ⟨channel, row, column, rest.1, rest.2.1, rest.2.2, fun sample => ?_⟩
  simp only [sampleSize, offset]
  ring

namespace Tensor

variable {batch : Nat} {x : Tensor Single} {selection : Selection batch} {sample : Nat}

theorem select_normalise (samples : x.shape.batch = batch) (norm : Norm) :
    (x.normalise norm).select selection = (x.select selection).normalise norm := by
  subst samples
  refine (select_ofFn _).trans (ofFn_congr ?_)
  intro sample channel row column inside
  rw [entry_select _ _ inside.1]

theorem select_rectify_normalise (samples : x.shape.batch = batch) (norm : Norm) :
    (x.normalise norm).rectify.select selection =
      ((x.select selection).normalise norm).rectify := by
  have normalised : (x.normalise norm).shape.batch = batch := samples
  rw [← select_normalise samples]
  exact select_map normalised _

/-! ## Convolutions -/

/-- A sum under the kernel reads one sample. -/
theorem weightedSum_select (bound : sample < selection.count) (taps : List Tap)
    (row column : Nat) :
    (x.select selection).weightedSum taps sample row column =
      x.weightedSum taps (selection.pick sample) row column := by
  simp only [weightedSum, borderedEntry, entry_select x selection bound]

theorem sampleIsFinite_select (samples : x.shape.batch = batch)
    (bound : sample < selection.count) :
    (x.select selection).sampleIsFinite sample = x.sampleIsFinite (selection.pick sample) := by
  have picked : selection.pick sample < x.shape.batch := samples ▸ selection.inside sample bound
  have value (place : Nat) (inside : place < x.shape.sampleSize) :
      (x.select selection).values.getD (sample * x.shape.sampleSize + place) 0 =
        x.values.getD (selection.pick sample * x.shape.sampleSize + place) 0 := by
    obtain ⟨channel, row, column, channel_lt, row_lt, column_lt, places⟩ :=
      Shape.exists_offset_of_place inside
    have contains : (x.select selection).shape.Contains sample channel row column :=
      ⟨bound, channel_lt, row_lt, column_lt⟩
    have original : x.shape.Contains (selection.pick sample) channel row column :=
      ⟨picked, channel_lt, row_lt, column_lt⟩
    have same := entry_select x selection bound channel row column
    rw [entry, if_pos contains, entry, if_pos original, ← places] at same
    exact (congrArg (fun place => (x.select selection).values.getD place 0) (places sample)).trans
      same
  refine Bool.eq_iff_iff.mpr ?_
  simp only [sampleIsFinite, List.all_eq_true, List.mem_range]
  refine forall_congr' fun place => forall_congr' fun inside => ?_
  exact iff_of_eq (congrArg (fun entry : Single => entry.isFinite = true) (value place inside))

/-- Where a sample is finite its zero weights are left out. -/
theorem convolve_eq (kernel : Kernel) (stride : Nat) (x : Tensor Single) :
    x.convolve kernel stride =
      ofFn ⟨x.shape.batch, kernel.outChannels, convolvedExtent stride x.shape.height,
          convolvedExtent stride x.shape.width⟩ fun sample channel row column =>
        x.weightedSum ((kernel.tapTable (!x.sampleIsFinite sample)).getD channel []) sample
          (row * stride) (column * stride) := by
  unfold convolve
  refine ofFn_congr ?_
  intro sample channel row column inside
  have bound : sample < x.shape.batch := inside.1
  have listed : (Array.ofFn (n := x.shape.batch) fun sample => x.sampleIsFinite sample).getD
      sample true = x.sampleIsFinite sample := by
    simp [Array.getD_eq_getD_getElem?, bound]
  rw [listed]
  cases x.sampleIsFinite sample with
  | true => rfl
  | false => rfl

theorem select_convolve (samples : x.shape.batch = batch) (kernel : Kernel) (stride : Nat) :
    (x.convolve kernel stride).select selection =
      (x.select selection).convolve kernel stride := by
  subst samples
  rw [convolve_eq, convolve_eq]
  refine (select_ofFn _).trans (ofFn_congr ?_)
  intro sample channel row column inside
  rw [weightedSum_select inside.1, sampleIsFinite_select rfl inside.1]

end Tensor

/-- The residual map of a block treats every sample alone. -/
theorem Bottleneck.select_apply {batch : Nat} {x : Tensor Single} {selection : Selection batch}
    (samples : x.shape.batch = batch) (bottleneck : Bottleneck) (stride : Nat) :
    (bottleneck.apply stride x).select selection =
      bottleneck.apply stride (x.select selection) := by
  subst samples
  unfold apply
  cases bottleneck.prologue with
  | none =>
      simp only
      rw [Tensor.select_convolve, Tensor.select_rectify_normalise, Tensor.select_convolve,
        Tensor.select_rectify_normalise, Tensor.select_convolve]
      all_goals rfl
  | some norm =>
      simp only
      rw [Tensor.select_convolve, Tensor.select_rectify_normalise, Tensor.select_convolve,
        Tensor.select_rectify_normalise, Tensor.select_convolve, Tensor.select_rectify_normalise]
      all_goals rfl

/-! ## Scores -/

/-- The rows of two matrices of one width, one matrix below the other. -/
theorem RowMajor.ofFn_rows {α : Type} (front behind width : Nat) (entry : Nat → Nat → α) :
    (Array.ofFn (n := (front + behind) * width) fun place => entry (place / width) (place % width)) =
      (Array.ofFn (n := front * width) fun place => entry (place / width) (place % width)) ++
        Array.ofFn (n := behind * width) fun place =>
          entry (front + place / width) (place % width) := by
  apply Array.ext
  · simp [Nat.add_mul]
  · intro place bound _
    simp only [Array.getElem_append, Array.size_ofFn, Array.getElem_ofFn]
    split
    · rfl
    · next late =>
      have width_pos : 0 < width := Nat.pos_of_ne_zero fun none => by simp [none] at bound
      have below : place = width * front + (place - front * width) := by
        rw [Nat.mul_comm]
        omega
      have row : place / width = front + (place - front * width) / width := by
        rw [← Nat.mul_add_div width_pos, ← below]
      have column : place % width = (place - front * width) % width := by
        rw [← Nat.mul_add_mod width front (place - front * width), ← below]
      rw [row, column]

/-- The scores of two batches, one behind the other. -/
def Logits.stack (first second : Logits) : Logits where
  batch := first.batch + second.batch
  classes := first.classes
  values := first.values ++ second.values

namespace Tensor

variable {batch : Nat} {x : Tensor Single} {selection : Selection batch} {sample : Nat}

/-- One score of one sample. -/
def score (norm : Norm) (linear : Linear) (features : Tensor Single) (sample target : Nat) :
    Single :=
  (List.range linear.features).foldl (fun sum channel =>
    sum + (features.normalise norm).rectify.channelMean sample channel *
      linear.weights.getD (channel * linear.classes + target) 0) 0 + linear.bias.getD target 0

/-- A classifier as wide as the features scores every sample by its own means. -/
theorem classify_eq {norm : Norm} {linear : Linear} {features : Tensor Single}
    (wide : linear.features = features.shape.channels) :
    features.classify norm linear =
      ⟨features.shape.batch, linear.classes,
        Array.ofFn (n := features.shape.batch * linear.classes) fun place =>
          features.score norm linear (place / linear.classes) (place % linear.classes)⟩ := by
  unfold classify score
  refine congrArg (Logits.mk _ _) (congrArg Array.ofFn (funext fun place => ?_))
  refine congrArg (· + linear.bias.getD (place % linear.classes) 0) (List.foldl_ext _ _ _ ?_)
  intro sum channel member
  have sample_lt : place / linear.classes < features.shape.batch :=
    Nat.div_lt_of_lt_mul (Nat.mul_comm features.shape.batch linear.classes ▸ place.isLt)
  have channel_lt : channel < features.shape.channels := wide ▸ List.mem_range.mp member
  have place_lt := RowMajor.mul_add_lt_mul sample_lt channel_lt
  simp [Array.getD_eq_getD_getElem?, place_lt, RowMajor.mul_add_div_of_lt channel_lt,
    RowMajor.mul_add_mod_of_lt channel_lt]

theorem channelMean_select (bound : sample < selection.count) (channel : Nat) :
    (x.select selection).channelMean sample channel =
      x.channelMean (selection.pick sample) channel := by
  simp only [channelMean, entry_select x selection bound, shape_select]

theorem score_select (samples : x.shape.batch = batch) (bound : sample < selection.count)
    (norm : Norm) (linear : Linear) (target : Nat) :
    (x.select selection).score norm linear sample target =
      x.score norm linear (selection.pick sample) target := by
  simp only [score, ← select_rectify_normalise samples, channelMean_select bound]

/-- The scores of a batch are those of its two parts. -/
theorem classify_parts {front behind : Nat} {features : Tensor Single}
    (samples : features.shape.batch = front + behind) {norm : Norm} {linear : Linear}
    (wide : linear.features = features.shape.channels) :
    features.classify norm linear =
      ((features.select (.first front behind)).classify norm linear).stack
        ((features.select (.last front behind)).classify norm linear) := by
  have first_wide : linear.features = (features.select (.first front behind)).shape.channels := wide
  have last_wide : linear.features = (features.select (.last front behind)).shape.channels := wide
  have first_scores (place : Fin (front * linear.classes)) :
      (features.select (.first front behind)).score norm linear (place / linear.classes)
          (place % linear.classes) =
        features.score norm linear (place / linear.classes) (place % linear.classes) :=
    score_select samples
      (Nat.div_lt_of_lt_mul (Nat.mul_comm front linear.classes ▸ place.isLt)) norm linear _
  have last_scores (place : Fin (behind * linear.classes)) :
      (features.select (.last front behind)).score norm linear (place / linear.classes)
          (place % linear.classes) =
        features.score norm linear (front + place / linear.classes) (place % linear.classes) :=
    score_select samples
      (Nat.div_lt_of_lt_mul (Nat.mul_comm behind linear.classes ▸ place.isLt)) norm linear _
  rw [classify_eq wide, classify_eq first_wide, classify_eq last_wide, samples]
  simp only [Logits.stack, Logits.mk.injEq, shape_select, Selection.count_first,
    Selection.count_last, first_scores, last_scores, true_and]
  exact RowMajor.ofFn_rows front behind linear.classes (features.score norm linear)

end Tensor

end InvertibleNet
