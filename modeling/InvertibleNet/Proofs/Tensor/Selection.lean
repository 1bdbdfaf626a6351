/-
# Selections of samples

A selection makes a new batch out of the samples of another one: in any order, with
some left out and others repeated. What treats every sample alone commutes with
every selection, and this is how the independence of samples is stated here. One
batch behind another is covered by it, because each of the two is a selection of
both together, and the two selections tell the whole.
-/

import InvertibleNet.Proofs.Tensor.Vacancy

namespace InvertibleNet

universe u

/-- Samples picked out of a batch. -/
structure Selection (batch : Nat) where
  count : Nat
  pick : Nat → Nat
  inside : ∀ sample < count, pick sample < batch

namespace Selection

variable {batch : Nat}

/-- All samples, as they are. -/
def whole (batch : Nat) : Selection batch := ⟨batch, id, fun _ bound => bound⟩

/-- The samples of the first of two batches. -/
def first (front behind : Nat) : Selection (front + behind) :=
  ⟨front, id, fun _ bound => Nat.lt_add_right behind bound⟩

/-- The samples of the second of two batches. -/
def last (front behind : Nat) : Selection (front + behind) :=
  ⟨behind, (front + ·), fun _ bound => Nat.add_lt_add_left bound front⟩

/-- A selection out of a selection. -/
def comp (selection : Selection batch) (further : Selection selection.count) : Selection batch :=
  ⟨further.count, fun sample => selection.pick (further.pick sample),
    fun sample bound => selection.inside _ (further.inside sample bound)⟩

@[simp] theorem count_first (front behind : Nat) : (first front behind).count = front := rfl

@[simp] theorem count_last (front behind : Nat) : (last front behind).count = behind := rfl

end Selection

namespace Tensor

variable {α : Type u} {batch : Nat}

/-- Whether two tensors agree on every axis but the batch. -/
def SameSample (x y : Tensor α) : Prop :=
  x.shape.channels = y.shape.channels ∧ x.shape.height = y.shape.height ∧
    x.shape.width = y.shape.width

theorem SameSample.hasPixels {x y : Tensor α} (same : x.SameSample y) :
    x.shape.hasPixels = y.shape.hasPixels := by
  rw [Shape.hasPixels, same.2.1, same.2.2, Shape.hasPixels]

theorem SameSample.sampleSize {x y : Tensor α} (same : x.SameSample y) :
    x.shape.sampleSize = y.shape.sampleSize := by
  rw [Shape.sampleSize, same.1, same.2.1, same.2.2, Shape.sampleSize]

variable [Zero α]

/-- The selected samples. -/
def select (x : Tensor α) (selection : Selection batch) : Tensor α :=
  ofFn { x.shape with batch := selection.count } fun sample channel row column =>
    x.entry (selection.pick sample) channel row column

/-- The samples of the first tensor followed by those of the second, which is taken
to agree with it on the other axes. -/
def stack (x y : Tensor α) : Tensor α :=
  ofFn { x.shape with batch := x.shape.batch + y.shape.batch } fun sample channel row column =>
    if sample < x.shape.batch then x.entry sample channel row column
    else y.entry (sample - x.shape.batch) channel row column

@[simp] theorem shape_select (x : Tensor α) (selection : Selection batch) :
    (x.select selection).shape = { x.shape with batch := selection.count } := rfl

@[simp] theorem shape_stack (x y : Tensor α) :
    (x.stack y).shape = { x.shape with batch := x.shape.batch + y.shape.batch } := rfl

theorem entry_select (x : Tensor α) (selection : Selection batch)
    {sample : Nat} (bound : sample < selection.count) (channel row column : Nat) :
    (x.select selection).entry sample channel row column =
      x.entry (selection.pick sample) channel row column := by
  rw [select, entry_ofFn]
  split
  · rfl
  · next outside =>
    refine (entry_of_not_contains fun contains => outside ?_).symm
    exact ⟨bound, contains.2⟩

/-! ## One batch behind another -/

theorem select_select (x : Tensor α) (selection : Selection batch)
    (further : Selection selection.count) :
    (x.select selection).select further = x.select (selection.comp further) := by
  refine ofFn_congr ?_
  intro sample channel row column inside
  exact entry_select x selection (further.inside sample inside.1) channel row column

theorem select_whole {x : Tensor α} (samples : x.shape.batch = batch) :
    x.select (.whole batch) = x := by
  subst samples
  refine eq_of_entries rfl ?_
  intro sample channel row column inside
  exact entry_select x (.whole x.shape.batch) inside.1 channel row column

theorem select_first_stack (x y : Tensor α) :
    (x.stack y).select (.first x.shape.batch y.shape.batch) = x := by
  refine eq_of_entries rfl ?_
  intro sample channel row column inside
  obtain ⟨sample_lt, rest⟩ := inside
  have bound : sample < x.shape.batch := sample_lt
  have contains : (x.stack y).shape.Contains sample channel row column :=
    ⟨Nat.lt_add_right _ bound, rest⟩
  rw [entry_select _ _ sample_lt, stack, entry_ofFn]
  exact (if_pos contains).trans (if_pos bound)

theorem select_last_stack {x y : Tensor α} (same : x.SameSample y) :
    (x.stack y).select (.last x.shape.batch y.shape.batch) = y := by
  obtain ⟨channels, height, width⟩ := same
  refine eq_of_entries ?_ ?_
  · show Shape.mk y.shape.batch x.shape.channels x.shape.height x.shape.width = y.shape
    rw [channels, height, width]
  · intro sample channel row column inside
    obtain ⟨sample_lt, rest⟩ := inside
    have bound : sample < y.shape.batch := sample_lt
    have contains : (x.stack y).shape.Contains (x.shape.batch + sample) channel row column :=
      ⟨Nat.add_lt_add_left bound _, rest⟩
    rw [entry_select _ _ sample_lt, stack, entry_ofFn]
    have late : ¬ x.shape.batch + sample < x.shape.batch := by omega
    refine (if_pos contains).trans ((if_neg late).trans ?_)
    show y.entry (x.shape.batch + sample - x.shape.batch) channel row column = _
    rw [Nat.add_sub_cancel_left]

/-- The two parts of a batch, one behind the other, are the whole batch. -/
theorem stack_select {front behind : Nat} {x : Tensor α} (samples : x.shape.batch = front + behind) :
    (x.select (.first front behind)).stack (x.select (.last front behind)) = x := by
  refine eq_of_entries ?_ ?_
  · show Shape.mk (front + behind) x.shape.channels x.shape.height x.shape.width = x.shape
    rw [← samples]
  · intro sample channel row column inside
    have bound : sample < front + behind := inside.1
    rw [stack, entry_ofFn]
    refine (if_pos inside).trans ?_
    show (if sample < front then _ else _) = _
    split
    · next early => exact entry_select x (.first front behind) early channel row column
    · next late =>
      have rest : sample - front < behind := by omega
      refine (entry_select x (.last front behind) rest channel row column).trans ?_
      show x.entry (front + (sample - front)) channel row column = _
      rw [Nat.add_sub_cancel' (by omega)]

/-! ## Operations on every sample -/

theorem select_ofFn {channels height width : Nat} {selection : Selection batch}
    (f : Nat → Nat → Nat → Nat → α) :
    (ofFn ⟨batch, channels, height, width⟩ f).select selection =
      ofFn ⟨selection.count, channels, height, width⟩ fun sample => f (selection.pick sample) := by
  refine ofFn_congr ?_
  intro sample channel row column inside
  rw [entry_ofFn]
  exact if_pos ⟨selection.inside sample inside.1, inside.2⟩

variable {x y : Tensor α} {selection : Selection batch}

theorem select_map (samples : x.shape.batch = batch) (f : α → α) :
    (x.map f).select selection = (x.select selection).map f := by
  refine eq_of_entries rfl ?_
  intro sample channel row column inside
  have bound : sample < selection.count := inside.1
  have contains : x.shape.Contains (selection.pick sample) channel row column :=
    ⟨samples ▸ selection.inside sample bound, inside.2⟩
  have picked : (x.select selection).shape.Contains sample channel row column := inside
  rw [entry_select _ _ bound, entry_map contains, entry_map picked, entry_select _ _ bound]

theorem select_neg [Neg α] (samples : x.shape.batch = batch) :
    (-x).select selection = -x.select selection := select_map samples _

theorem select_add [Add α] (samples : x.shape.batch = batch) (shapes : x.shape = y.shape) :
    (x + y).select selection = x.select selection + y.select selection := by
  refine eq_of_entries rfl ?_
  intro sample channel row column inside
  have bound : sample < selection.count := inside.1
  have contains : x.shape.Contains (selection.pick sample) channel row column :=
    ⟨samples ▸ selection.inside sample bound, inside.2⟩
  have picked : (x.select selection).shape.Contains sample channel row column := inside
  have selected : (x.select selection).shape = (y.select selection).shape := by
    rw [shape_select, shape_select, shapes]
  calc ((x + y).select selection).entry sample channel row column
      = (x + y).entry (selection.pick sample) channel row column := entry_select _ _ bound _ _ _
    _ = x.entry (selection.pick sample) channel row column +
          y.entry (selection.pick sample) channel row column := entry_combine shapes contains
    _ = (x.select selection).entry sample channel row column +
          (y.select selection).entry sample channel row column := by
        rw [entry_select _ _ bound, entry_select _ _ bound]
    _ = (x.select selection + y.select selection).entry sample channel row column :=
        (entry_combine selected picked).symm

theorem select_channelRange (samples : x.shape.batch = batch) (start count : Nat) :
    (x.channelRange start count).select selection =
      (x.select selection).channelRange start count := by
  subst samples
  refine (select_ofFn _).trans (ofFn_congr ?_)
  intro sample channel row column inside
  exact (entry_select x selection inside.1 _ _ _).symm

theorem cut_select (samples : x.shape.batch = batch) :
    (x.select selection).cut = (x.cut.1.select selection, x.cut.2.select selection) := by
  rw [cut, cut, select_channelRange samples, select_channelRange samples]
  rfl

theorem select_append (samples : x.shape.batch = batch) :
    (x.append y).select selection = (x.select selection).append (y.select selection) := by
  subst samples
  refine (select_ofFn _).trans (ofFn_congr ?_)
  intro sample channel row column inside
  rw [entry_select _ _ inside.1, entry_select _ _ inside.1]
  rfl

theorem select_padChannels (samples : x.shape.batch = batch) (pad : Nat) :
    (x.padChannels pad).select selection = (x.select selection).padChannels pad := by
  unfold padChannels
  split
  · rfl
  · rw [select_append samples]
    subst samples
    exact congrArg (x.select selection).append (select_ofFn _)

end Tensor

namespace Psi

variable {α : Type u} [Zero α] {batch : Nat} {psi : Psi} {x : Tensor α}
  {selection : Selection batch}

/-- The rearrangement moves nothing from one sample to another. -/
theorem select_gather (samples : x.shape.batch = batch) (divides : psi.Divides x.shape) :
    (psi.gather x).select selection = psi.gather (x.select selection) := by
  unfold gather
  split
  · rfl
  · obtain ⟨block_pos, height_dvd, width_dvd⟩ := divides
    refine Tensor.eq_of_entries rfl ?_
    intro sample channel row column inside
    obtain ⟨bound, channel_lt, row_lt, column_lt⟩ := inside
    obtain ⟨blockRow, blockColumn, kept, blockRow_lt, blockColumn_lt, kept_lt, rfl⟩ :=
      exists_place channel_lt
    have picked_lt : selection.pick sample < x.shape.batch :=
      samples ▸ selection.inside sample bound
    have selected_height : psi.block ∣ (x.select selection).shape.height := height_dvd
    calc ((spaceToDepth psi.block x).select selection).entry sample
          ((blockRow * psi.block + blockColumn) * x.shape.channels + kept) row column
        = (spaceToDepth psi.block x).entry (selection.pick sample)
            ((blockRow * psi.block + blockColumn) * x.shape.channels + kept) row column :=
          Tensor.entry_select _ _ bound _ _ _
      _ = x.entry (selection.pick sample) kept (row * psi.block + blockRow)
            (column * psi.block + blockColumn) :=
          entry_spaceToDepth height_dvd width_dvd picked_lt blockRow_lt blockColumn_lt kept_lt
            row_lt column_lt
      _ = (x.select selection).entry sample kept (row * psi.block + blockRow)
            (column * psi.block + blockColumn) := (Tensor.entry_select _ _ bound _ _ _).symm
      _ = (spaceToDepth psi.block (x.select selection)).entry sample
            ((blockRow * psi.block + blockColumn) * x.shape.channels + kept) row column :=
          (entry_spaceToDepth selected_height width_dvd bound blockRow_lt blockColumn_lt kept_lt
            row_lt column_lt).symm

theorem select_scatter (block_pos : 0 < psi.block) (samples : x.shape.batch = batch)
    (channels_dvd : psi.block * psi.block ∣ x.shape.channels) :
    (psi.scatter x).select selection = psi.scatter (x.select selection) := by
  have spread := shape_scatter block_pos x
  have divides : psi.Divides (psi.scatter x).shape := by
    rw [spread]
    exact ⟨block_pos, Nat.dvd_mul_left _ _, Nat.dvd_mul_left _ _⟩
  have scattered : (psi.scatter x).shape.batch = batch := by
    rw [spread]
    exact samples
  have selected : psi.Divides ((psi.scatter x).select selection).shape := divides
  calc (psi.scatter x).select selection
      = psi.scatter (psi.gather ((psi.scatter x).select selection)) :=
        (scatter_gather selected).symm
    _ = psi.scatter ((psi.gather (psi.scatter x)).select selection) := by
        rw [select_gather scattered divides]
    _ = psi.scatter (x.select selection) := by rw [gather_scatter block_pos channels_dvd]

/-- Going back commutes with every selection, also with that of no sample. -/
theorem inverse_select (full : x.shape.IsFull) (block_pos : 0 < psi.block)
    (area_lt : psi.block * psi.block < Count.limit)
    (channels_dvd : psi.block * psi.block ∣ x.shape.channels) (samples : x.shape.batch = batch)
    (room : selection.count = 0 → x.shape.sampleSize < Count.signedLimit) :
    psi.inverse (x.select selection) = .ok ((psi.scatter x).select selection) := by
  rw [select_scatter block_pos samples channels_dvd]
  rcases Nat.eq_zero_or_pos selection.count with vacant | some
  · exact inverse_vacant block_pos area_lt vacant full.2.1 full.hasPixels channels_dvd
      (room vacant)
  · exact inverse_eq_scatter ⟨some, full.2⟩ area_lt channels_dvd

end Psi

end InvertibleNet
