/-
# Rearrangements are permutations

A position inside a list of extents and its place in row-major order determine
each other, whatever the rank. So a rearrangement loses nothing: the one that
reads every place from where the first has put it undoes it. Space-to-depth and
depth-to-space are such a pair on every tensor whose extents fit the block, and
each of them keeps a tensor full.
-/

import InvertibleNet.Proofs.Tensor.Halves
import InvertibleNet.Tensor.Psi
import Mathlib.Data.List.Forall2
import Mathlib.Tactic.Ring

namespace InvertibleNet

universe u

namespace RowMajor

/-- Whether a position has an index for every extent, and each index is inside. -/
def Inside (extents position : List Nat) : Prop := List.Forall₂ (· < ·) position extents

theorem Inside.place_lt {extents position : List Nat} (inside : Inside extents position) :
    place extents position < size extents := by
  induction inside with
  | nil => exact Nat.one_pos
  | cons bound _ ih => exact mul_add_lt_mul bound ih

/-- The place of a position tells the position. -/
theorem Inside.position_place {extents position : List Nat} (inside : Inside extents position) :
    RowMajor.position extents (place extents position) = position := by
  induction inside with
  | nil => rfl
  | cons bound rest ih =>
      simp only [place, RowMajor.position]
      rw [mul_add_div_of_lt (Inside.place_lt rest), mul_add_mod_of_lt (Inside.place_lt rest), ih]

/-- Every place has a position inside the extents. -/
theorem inside_position {extents : List Nat} {index : Nat} (bound : index < size extents) :
    Inside extents (position extents index) := by
  induction extents generalizing index with
  | nil => exact .nil
  | cons extent extents ih =>
      have rest_pos : 0 < size extents := by
        rcases Nat.eq_zero_or_pos (size extents) with none | some
        · simp [size, none] at bound
        · exact some
      refine .cons ?_ (ih (Nat.mod_lt _ rest_pos))
      exact (Nat.div_lt_iff_lt_mul rest_pos).mpr bound

/-- The position of a place tells the place. -/
theorem place_position {extents : List Nat} {index : Nat} (bound : index < size extents) :
    place extents (position extents index) = index := by
  induction extents generalizing index with
  | nil => exact (Nat.lt_one_iff.mp bound).symm
  | cons extent extents ih =>
      have rest_pos : 0 < size extents := by
        rcases Nat.eq_zero_or_pos (size extents) with none | some
        · simp [size, none] at bound
        · exact some
      simp only [position, place]
      rw [ih (Nat.mod_lt _ rest_pos), Nat.div_add_mod']

variable {α : Type u} [Zero α]

@[simp] theorem size_rearrange (before after : List Nat) (source : List Nat → List Nat)
    (values : Array α) : (rearrange before after source values).size = size after := by
  simp [rearrange]

/-- A rearranged array has at a position what the source position had before. -/
theorem getD_rearrange {before after position : List Nat} (source : List Nat → List Nat)
    (values : Array α) (inside : Inside after position) :
    (rearrange before after source values).getD (place after position) 0 =
      values.getD (place before (source position)) 0 := by
  have bound := inside.place_lt
  rw [rearrange, Array.getD_eq_getD_getElem?, Array.getElem?_ofFn, dif_pos bound,
    Option.getD_some, inside.position_place]

/-- Reading every value from where it was put undoes a rearrangement. -/
theorem rearrange_rearrange {before after : List Nat} {source back : List Nat → List Nat}
    {values : Array α} (size_eq : values.size = size before)
    (back_inside : ∀ position, Inside before position → Inside after (back position))
    (source_back : ∀ position, Inside before position → source (back position) = position) :
    rearrange after before back (rearrange before after source values) = values := by
  apply Array.ext (by simp [size_eq])
  intro index bound valuesBound
  have inBefore : index < size before := by simpa using bound
  have inside := inside_position inBefore
  have moved : (rearrange after before back (rearrange before after source values)).getD
      (place before (position before index)) 0 =
        values.getD (place before (position before index)) 0 := by
    rw [getD_rearrange back _ inside, getD_rearrange source values (back_inside _ inside),
      source_back _ inside]
  rw [place_position inBefore, Array.getD_eq_getD_getElem?, Array.getD_eq_getD_getElem?,
    Array.getElem?_eq_getElem bound, Array.getElem?_eq_getElem valuesBound] at moved
  exact moved

end RowMajor

/-- A tensor is its shape and its values. -/
theorem Tensor.eq_of_values {α : Type u} {x y : Tensor α} (shapes : x.shape = y.shape)
    (values : x.values = y.values) : x = y := by
  cases x
  cases y
  simp only at shapes values
  subst shapes values
  rfl

namespace Psi

open RowMajor

/-- Gathering the block axes of a position keeps it inside. -/
theorem inside_collect {batch channels rows columns block : Nat} {position : List Nat}
    (inside : Inside [batch, channels, rows, block, columns, block] position) :
    Inside [batch, block, block, channels, rows, columns] (collect position) ∧
      interleave (collect position) = position := by
  rcases inside with _ | ⟨sample, _ | ⟨channel, _ | ⟨row, _ | ⟨blockRow, _ | ⟨column,
    _ | ⟨blockColumn, _ | _⟩⟩⟩⟩⟩⟩
  exact ⟨.cons sample (.cons blockRow (.cons blockColumn (.cons channel (.cons row
    (.cons column .nil))))), rfl⟩

/-- Interleaving the block axes of a position keeps it inside. -/
theorem inside_interleave {batch channels rows columns block : Nat} {position : List Nat}
    (inside : Inside [batch, block, block, channels, rows, columns] position) :
    Inside [batch, channels, rows, block, columns, block] (interleave position) ∧
      collect (interleave position) = position := by
  rcases inside with _ | ⟨sample, _ | ⟨blockRow, _ | ⟨blockColumn, _ | ⟨channel, _ | ⟨row,
    _ | ⟨column, _ | _⟩⟩⟩⟩⟩⟩
  exact ⟨.cons sample (.cons channel (.cons row (.cons blockRow (.cons column
    (.cons blockColumn .nil))))), rfl⟩

/-- The shape behind the forward rearrangement. -/
def gathered (psi : Psi) (shape : Shape) : Shape :=
  ⟨shape.batch, psi.block * psi.block * shape.channels, shape.height / psi.block,
    shape.width / psi.block⟩

/-- The shape behind the inverse rearrangement. -/
def spread (psi : Psi) (shape : Shape) : Shape :=
  ⟨shape.batch, shape.channels / (psi.block * psi.block), shape.height * psi.block,
    shape.width * psi.block⟩

/-- Whether the rearrangement has a block and the block divides height and width. -/
def Divides (psi : Psi) (shape : Shape) : Prop :=
  0 < psi.block ∧ psi.block ∣ shape.height ∧ psi.block ∣ shape.width

theorem spread_gathered {psi : Psi} {shape : Shape} (divides : psi.Divides shape) :
    psi.spread (psi.gathered shape) = shape := by
  obtain ⟨block_pos, height_dvd, width_dvd⟩ := divides
  simp only [spread, gathered, Nat.mul_div_cancel_left _ (Nat.mul_pos block_pos block_pos),
    Nat.div_mul_cancel height_dvd, Nat.div_mul_cancel width_dvd]

theorem gathered_spread {psi : Psi} {shape : Shape} (block_pos : 0 < psi.block)
    (channels_dvd : psi.block * psi.block ∣ shape.channels) :
    psi.gathered (psi.spread shape) = shape := by
  simp only [spread, gathered, Nat.mul_div_cancel' channels_dvd, Nat.mul_div_cancel _ block_pos]

variable {α : Type u} [Zero α]

/-- The forward rearrangement where it has a result. -/
def gather (psi : Psi) (x : Tensor α) : Tensor α :=
  if psi.isIdentity then x else spaceToDepth psi.block x

/-- The inverse rearrangement where it has a result. -/
def scatter (psi : Psi) (x : Tensor α) : Tensor α :=
  if psi.isIdentity then x else depthToSpace psi.block x

theorem isIdentity_iff {psi : Psi} : psi.isIdentity = true ↔ psi.block ≤ 1 := decide_eq_true_iff

theorem not_isIdentity {psi : Psi} (moves : 2 ≤ psi.block) : ¬ psi.isIdentity = true := by
  rw [isIdentity_iff]
  omega

theorem block_eq_one {psi : Psi} (block_pos : 0 < psi.block) (identity : psi.isIdentity = true) :
    psi.block = 1 := by
  have := isIdentity_iff.mp identity
  omega

/-- The guard of the forward rearrangement is a divisibility. -/
theorem misfits_iff {psi : Psi} {shape : Shape} :
    (shape.height % psi.block ≠ 0 ∨ shape.width % psi.block ≠ 0) ↔
      ¬ (psi.block ∣ shape.height ∧ psi.block ∣ shape.width) := by
  rw [← not_and_or, Nat.dvd_iff_mod_eq_zero, Nat.dvd_iff_mod_eq_zero]

theorem shape_gather {psi : Psi} (block_pos : 0 < psi.block) (x : Tensor α) :
    (psi.gather x).shape = psi.gathered x.shape := by
  unfold gather
  split
  case isTrue identity => simp [gathered, block_eq_one block_pos identity]
  case isFalse => rfl

theorem shape_scatter {psi : Psi} (block_pos : 0 < psi.block) (x : Tensor α) :
    (psi.scatter x).shape = psi.spread x.shape := by
  unfold scatter
  split
  case isTrue identity => simp [spread, block_eq_one block_pos identity]
  case isFalse => rfl

/-- Every entry of the rearrangement is one entry of the tensor: the place inside its
block has become the leading part of its channel. -/
theorem entry_spaceToDepth {block : Nat} {x : Tensor α} (height_dvd : block ∣ x.shape.height)
    (width_dvd : block ∣ x.shape.width) {sample blockRow blockColumn channel row column : Nat}
    (sample_lt : sample < x.shape.batch) (blockRow_lt : blockRow < block)
    (blockColumn_lt : blockColumn < block) (channel_lt : channel < x.shape.channels)
    (row_lt : row < x.shape.height / block) (column_lt : column < x.shape.width / block) :
    (spaceToDepth block x).entry sample ((blockRow * block + blockColumn) * x.shape.channels +
        channel) row column =
      x.entry sample channel (row * block + blockRow) (column * block + blockColumn) := by
  obtain ⟨⟨batch, channels, height, width⟩, values, size_eq⟩ := x
  obtain ⟨rows, rfl⟩ := height_dvd
  obtain ⟨columns, rfl⟩ := width_dvd
  have block_pos : 0 < block := Nat.zero_lt_of_lt blockRow_lt
  simp only [Nat.mul_div_cancel_left _ block_pos] at sample_lt channel_lt row_lt column_lt
  have inside : Inside [batch, block, block, channels, rows, columns]
      [sample, blockRow, blockColumn, channel, row, column] :=
    .cons sample_lt (.cons blockRow_lt (.cons blockColumn_lt (.cons channel_lt (.cons row_lt
      (.cons column_lt .nil)))))
  have moved : (rearrange [batch, channels, rows, block, columns, block]
        [batch, block, block, channels, rows, columns] interleave values).getD
          (place [batch, block, block, channels, rows, columns]
            [sample, blockRow, blockColumn, channel, row, column]) 0 =
      values.getD (place [batch, channels, rows, block, columns, block]
        [sample, channel, row, blockRow, column, blockColumn]) 0 :=
    getD_rearrange interleave values inside
  -- Both places are offsets of entries, on either side with four axes instead of six.
  have place_after : place [batch, block, block, channels, rows, columns]
        [sample, blockRow, blockColumn, channel, row, column] =
      ((sample * (block * block * channels) + ((blockRow * block + blockColumn) * channels +
        channel)) * rows + row) * columns + column := by
    simp only [place, size]
    ring
  have place_before : place [batch, channels, rows, block, columns, block]
        [sample, channel, row, blockRow, column, blockColumn] =
      ((sample * channels + channel) * (block * rows) + (row * block + blockRow)) *
        (block * columns) + (column * block + blockColumn) := by
    simp only [place, size]
    ring
  have inside_after : (Shape.mk batch (block * block * channels) rows columns).Contains sample
      ((blockRow * block + blockColumn) * channels + channel) row column :=
    ⟨sample_lt, mul_add_lt_mul (mul_add_lt_mul blockRow_lt blockColumn_lt) channel_lt, row_lt,
      column_lt⟩
  have inside_before : (Shape.mk batch channels (block * rows) (block * columns)).Contains sample
      channel (row * block + blockRow) (column * block + blockColumn) :=
    ⟨sample_lt, channel_lt, Nat.mul_comm block rows ▸ mul_add_lt_mul row_lt blockRow_lt,
      Nat.mul_comm block columns ▸ mul_add_lt_mul column_lt blockColumn_lt⟩
  rw [place_after, place_before] at moved
  simp only [Tensor.entry, spaceToDepth, Nat.mul_div_cancel_left _ block_pos, if_pos inside_after,
    if_pos inside_before]
  exact moved

/-- Every channel behind the rearrangement is a place inside the block followed by a
channel of the image. -/
theorem exists_place {block channels channel : Nat} (bound : channel < block * block * channels) :
    ∃ blockRow blockColumn kept, blockRow < block ∧ blockColumn < block ∧ kept < channels ∧
      (blockRow * block + blockColumn) * channels + kept = channel := by
  have area_pos : 0 < block * block * channels := Nat.zero_lt_of_lt bound
  have channels_pos : 0 < channels := Nat.pos_of_mul_pos_left area_pos
  have block_pos : 0 < block := Nat.pos_of_mul_pos_left (Nat.pos_of_mul_pos_right area_pos)
  have place_lt : channel / channels < block * block :=
    (Nat.div_lt_iff_lt_mul channels_pos).mpr bound
  refine ⟨channel / channels / block, channel / channels % block, channel % channels,
    (Nat.div_lt_iff_lt_mul block_pos).mpr place_lt, Nat.mod_lt _ block_pos,
    Nat.mod_lt _ channels_pos, ?_⟩
  rw [Nat.div_add_mod', Nat.div_add_mod']

/-- Behind a rearrangement every place shows a place in front of it. -/
theorem entry_gather {psi : Psi} {shape : Shape} (divides : psi.Divides shape)
    {sample channel row column : Nat}
    (inside : (psi.gathered shape).Contains sample channel row column) :
    ∃ kept up across, shape.Contains sample kept up across ∧
      ∀ x : Tensor α, x.shape = shape →
        (psi.gather x).entry sample channel row column = x.entry sample kept up across := by
  obtain ⟨sample_lt, channel_lt, row_lt, column_lt⟩ := inside
  obtain ⟨block_pos, height_dvd, width_dvd⟩ := divides
  by_cases identity : psi.isIdentity = true
  · simp only [gathered, block_eq_one block_pos identity, Nat.one_mul, Nat.div_one] at *
    refine ⟨channel, row, column, ⟨sample_lt, channel_lt, row_lt, column_lt⟩, ?_⟩
    intro x _
    rw [gather, if_pos identity]
  · obtain ⟨blockRow, blockColumn, kept, blockRow_lt, blockColumn_lt, kept_lt, rfl⟩ :=
      exists_place channel_lt
    have up_lt : row * psi.block + blockRow < shape.height / psi.block * psi.block :=
      RowMajor.mul_add_lt_mul row_lt blockRow_lt
    have across_lt : column * psi.block + blockColumn < shape.width / psi.block * psi.block :=
      RowMajor.mul_add_lt_mul column_lt blockColumn_lt
    rw [Nat.div_mul_cancel height_dvd] at up_lt
    rw [Nat.div_mul_cancel width_dvd] at across_lt
    refine ⟨kept, row * psi.block + blockRow, column * psi.block + blockColumn,
      ⟨sample_lt, kept_lt, up_lt, across_lt⟩, ?_⟩
    rintro x rfl
    rw [gather, if_neg identity]
    exact entry_spaceToDepth height_dvd width_dvd sample_lt blockRow_lt blockColumn_lt kept_lt
      row_lt column_lt

/-- Every place in front of a rearrangement is shown at a place behind it. -/
theorem exists_entry_gather {psi : Psi} {shape : Shape} (divides : psi.Divides shape)
    {sample kept up across : Nat}
    (inside : shape.Contains sample kept up across) :
    ∃ channel row column, (psi.gathered shape).Contains sample channel row column ∧
      ∀ x : Tensor α, x.shape = shape →
        (psi.gather x).entry sample channel row column = x.entry sample kept up across := by
  obtain ⟨sample_lt, kept_lt, up_lt, across_lt⟩ := inside
  obtain ⟨block_pos, height_dvd, width_dvd⟩ := divides
  by_cases identity : psi.isIdentity = true
  · refine ⟨kept, up, across, ?_, ?_⟩
    · simp only [gathered, block_eq_one block_pos identity, Nat.one_mul, Nat.div_one]
      exact ⟨sample_lt, kept_lt, up_lt, across_lt⟩
    · intro x _
      rw [gather, if_pos identity]
  · have blockRow_lt := Nat.mod_lt up block_pos
    have blockColumn_lt := Nat.mod_lt across block_pos
    have row_lt : up / psi.block < shape.height / psi.block :=
      Nat.div_lt_div_of_lt_of_dvd height_dvd up_lt
    have column_lt : across / psi.block < shape.width / psi.block :=
      Nat.div_lt_div_of_lt_of_dvd width_dvd across_lt
    refine ⟨(up % psi.block * psi.block + across % psi.block) * shape.channels + kept,
      up / psi.block, across / psi.block, ⟨sample_lt, ?_, row_lt, column_lt⟩, ?_⟩
    · exact RowMajor.mul_add_lt_mul (RowMajor.mul_add_lt_mul blockRow_lt blockColumn_lt) kept_lt
    · rintro x rfl
      rw [gather, if_neg identity, entry_spaceToDepth height_dvd width_dvd sample_lt blockRow_lt
        blockColumn_lt kept_lt row_lt column_lt, Nat.div_add_mod', Nat.div_add_mod']

theorem full_gathered {psi : Psi} {shape : Shape} (full : shape.IsFull)
    (divides : psi.Divides shape) : (psi.gathered shape).IsFull := by
  obtain ⟨batch_pos, channels_pos, height_pos, width_pos⟩ := full
  obtain ⟨block_pos, height_dvd, width_dvd⟩ := divides
  exact ⟨batch_pos, Nat.mul_pos (Nat.mul_pos block_pos block_pos) channels_pos,
    Nat.div_pos (Nat.le_of_dvd height_pos height_dvd) block_pos,
    Nat.div_pos (Nat.le_of_dvd width_pos width_dvd) block_pos⟩

/-- A rearrangement leaves the entry at the origin where it is. -/
theorem entry_gather_origin {psi : Psi} {x : Tensor α} (full : x.shape.IsFull)
    (divides : psi.Divides x.shape) : (psi.gather x).entry 0 0 0 0 = x.entry 0 0 0 0 := by
  obtain ⟨-, -, rows_pos, columns_pos⟩ := full_gathered full divides
  obtain ⟨block_pos, height_dvd, width_dvd⟩ := divides
  unfold gather
  split
  · rfl
  · have origin := entry_spaceToDepth height_dvd width_dvd full.1 block_pos block_pos full.2.1
      rows_pos columns_pos
    simp only [Nat.zero_mul, Nat.add_zero] at origin
    exact origin

theorem scatter_gather {psi : Psi} {x : Tensor α} (divides : psi.Divides x.shape) :
    psi.scatter (psi.gather x) = x := by
  have shapes : (psi.scatter (psi.gather x)).shape = x.shape := by
    rw [shape_scatter divides.1, shape_gather divides.1, spread_gathered divides]
  apply Tensor.eq_of_values shapes
  unfold scatter gather
  by_cases identity : psi.isIdentity = true
  · rw [if_pos identity, if_pos identity]
  · rw [if_neg identity, if_neg identity]
    obtain ⟨⟨batch, channels, height, width⟩, values, size_eq⟩ := x
    obtain ⟨block_pos, ⟨rows, height_eq⟩, ⟨columns, width_eq⟩⟩ := divides
    simp only at height_eq width_eq
    subst height_eq width_eq
    simp only [spaceToDepth, depthToSpace, Nat.mul_div_cancel_left _ block_pos,
      Nat.mul_div_cancel_left _ (Nat.mul_pos block_pos block_pos)]
    apply rearrange_rearrange
    · rw [size_eq]
      simp only [Shape.size, RowMajor.size]
      ac_rfl
    · intro position inside
      exact (inside_collect inside).1
    · intro position inside
      exact (inside_collect inside).2

theorem gather_scatter {psi : Psi} {x : Tensor α} (block_pos : 0 < psi.block)
    (channels_dvd : psi.block * psi.block ∣ x.shape.channels) :
    psi.gather (psi.scatter x) = x := by
  have shapes : (psi.gather (psi.scatter x)).shape = x.shape := by
    rw [shape_gather block_pos, shape_scatter block_pos, gathered_spread block_pos channels_dvd]
  apply Tensor.eq_of_values shapes
  unfold scatter gather
  by_cases identity : psi.isIdentity = true
  · rw [if_pos identity, if_pos identity]
  · rw [if_neg identity, if_neg identity]
    obtain ⟨⟨batch, depth, rows, columns⟩, values, size_eq⟩ := x
    obtain ⟨channels, channels_eq⟩ := channels_dvd
    simp only at channels_eq
    subst channels_eq
    simp only [spaceToDepth, depthToSpace, Nat.mul_div_cancel _ block_pos,
      Nat.mul_div_cancel_left _ (Nat.mul_pos block_pos block_pos)]
    apply rearrange_rearrange
    · rw [size_eq]
      simp only [Shape.size, RowMajor.size]
      ac_rfl
    · intro position inside
      exact (inside_interleave inside).1
    · intro position inside
      exact (inside_interleave inside).2

/-- On full tensors that the block divides, the forward rearrangement succeeds. -/
theorem forward_eq_gather {psi : Psi} {x : Tensor α} (full : x.shape.IsFull)
    (divides : psi.Divides x.shape) : psi.forward x = .ok (psi.gather x) := by
  unfold forward gather
  split
  · rfl
  · have fits := not_not_intro divides.2
    rw [if_neg (mt misfits_iff.mp fits), if_neg full.size_ne_zero]

/-- On full tensors whose channels the area of the block divides, the inverse
rearrangement succeeds. -/
theorem inverse_eq_scatter {psi : Psi} {x : Tensor α} (full : x.shape.IsFull)
    (area_lt : psi.block * psi.block < Count.limit)
    (channels_dvd : psi.block * psi.block ∣ x.shape.channels) :
    psi.inverse x = .ok (psi.scatter x) := by
  unfold inverse scatter
  split
  · rfl
  · rw [Count.checked_eq_some_iff.mpr ⟨area_lt, rfl⟩]
    simp only [Nat.mod_eq_zero_of_dvd channels_dvd, ne_eq, not_true_eq_false, if_false]
    rw [if_neg full.size_ne_zero]

/-- Channels that the area of the block does not divide are refused by the inverse
rearrangement, whatever the other extents are. -/
theorem inverse_refuses {psi : Psi} {x : Tensor α} (block_pos : 0 < psi.block)
    (area_lt : psi.block * psi.block < Count.limit)
    (misfit : ¬ psi.block * psi.block ∣ x.shape.channels) :
    psi.inverse x = .error (.shape (.psiInverseMisfit (psi.block * psi.block) x.shape)) := by
  have moves : ¬ psi.isIdentity = true := by
    intro identity
    rw [block_eq_one block_pos identity] at misfit
    exact misfit (Nat.one_dvd _)
  have rest : x.shape.channels % (psi.block * psi.block) ≠ 0 := fun none =>
    misfit (Nat.dvd_of_mod_eq_zero none)
  unfold inverse
  rw [if_neg moves, Count.checked_eq_some_iff.mpr ⟨area_lt, rfl⟩]
  exact if_pos rest

end Psi

end InvertibleNet
