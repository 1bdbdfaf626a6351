/-
# The rearrangement is the stated permutation

The forward rearrangement puts the value at row `i * s + dh` and column `j * s + dw` of a
channel `c` to row `i` and column `j` of the channel `(dh * s + dw) * C + c`, for a block
`s` and an image of `C` channels, and the inverse puts it back. Each of them moves every
value to one place: what it gives holds the same values in another order.

Both have this on every batch of images that have a value, also on an empty batch. On
images without a value neither has it: what comes out then has channels that nobody asked
for, or nothing comes out.
-/

import InvertibleNet.Proofs.Tensor.Vacancy
import Mathlib.Data.List.Nodup
import Mathlib.Data.List.Perm.Subperm

namespace InvertibleNet

universe u

namespace RowMajor

variable {α : Type u} [Zero α]

theorem toList_eq_map_range (values : Array α) :
    values.toList = (List.range values.size).map fun place => values.getD place 0 := by
  apply List.ext_getElem (by simp)
  intro place inside _
  have bound : place < values.size := by simpa using inside
  simp [Array.getD_eq_getD_getElem?, bound]

/-- Two positions with one place are one. -/
theorem Inside.eq_of_place_eq {extents first second : List Nat} (here : Inside extents first)
    (there : Inside extents second) (same : place extents first = place extents second) :
    first = second := by
  rw [← here.position_place, ← there.position_place, same]

/-- A rearrangement that finds every value it asks for, each at a position of its own, gives
the same values in another order. -/
theorem perm_rearrange {before after : List Nat} {source back : List Nat → List Nat}
    {values : Array α} (size_eq : values.size = size before) (sizes : size after = size before)
    (source_inside : ∀ position, Inside after position → Inside before (source position))
    (back_source : ∀ position, Inside after position → back (source position) = position) :
    (rearrange before after source values).toList.Perm values.toList := by
  have moves_apart : ((List.range (size after)).map fun index =>
      place before (source (position after index))).Nodup := by
    refine List.Nodup.map_on ?_ List.nodup_range
    intro first first_mem second second_mem same
    have here := inside_position (List.mem_range.mp first_mem)
    have there := inside_position (List.mem_range.mp second_mem)
    have sources := (source_inside _ here).eq_of_place_eq (source_inside _ there) same
    have positions : position after first = position after second := by
      rw [← back_source _ here, ← back_source _ there, sources]
    rw [← place_position (List.mem_range.mp first_mem),
      ← place_position (List.mem_range.mp second_mem), positions]
  have stays_inside : ((List.range (size after)).map fun index =>
      place before (source (position after index))) ⊆ List.range (size before) := by
    intro moved member
    obtain ⟨index, index_mem, rfl⟩ := List.mem_map.mp member
    have here := inside_position (List.mem_range.mp index_mem)
    exact List.mem_range.mpr (source_inside _ here).place_lt
  have places := (List.subperm_of_subset moves_apart stays_inside).perm_of_length_le
    (by simp [sizes])
  have read : (rearrange before after source values).toList =
      ((List.range (size after)).map fun index =>
        place before (source (position after index))).map fun place => values.getD place 0 := by
    rw [toList_eq_map_range, size_rearrange, List.map_map]
    apply List.map_congr_left
    intro index index_mem
    have bound := List.mem_range.mp index_mem
    have moved :
        (rearrange before after source values).getD (place after (position after index)) 0 =
          values.getD (place before (source (position after index))) 0 :=
      getD_rearrange source values (inside_position bound)
    rw [place_position bound] at moved
    exact moved
  rw [read, toList_eq_map_range values, size_eq]
  exact places.map _

end RowMajor

namespace Psi

open RowMajor

variable {α : Type u} [Zero α] {psi : Psi}

/-- Whether the second tensor is the first one with the places inside the blocks moved
into its channels, and no value lost, doubled or changed. -/
structure Permutes (psi : Psi) (x y : Tensor α) : Prop where
  shape : y.shape = ⟨x.shape.batch, psi.block * psi.block * x.shape.channels,
    x.shape.height / psi.block, x.shape.width / psi.block⟩
  entry : ∀ sample blockRow blockColumn channel row column, sample < x.shape.batch →
    blockRow < psi.block → blockColumn < psi.block → channel < x.shape.channels →
    row < x.shape.height / psi.block → column < x.shape.width / psi.block →
      y.entry sample ((blockRow * psi.block + blockColumn) * x.shape.channels + channel) row
          column =
        x.entry sample channel (row * psi.block + blockRow) (column * psi.block + blockColumn)
  values : y.values.toList.Perm x.values.toList

variable {x y : Tensor α}

theorem perm_gather (divides : psi.Divides x.shape) :
    (psi.gather x).values.toList.Perm x.values.toList := by
  unfold gather
  split
  · exact .refl _
  · obtain ⟨⟨batch, channels, height, width⟩, values, size_eq⟩ := x
    obtain ⟨block_pos, ⟨rows, height_eq⟩, ⟨columns, width_eq⟩⟩ := divides
    simp only at height_eq width_eq
    subst height_eq width_eq
    simp only [spaceToDepth, Nat.mul_div_cancel_left _ block_pos]
    apply perm_rearrange
    · rw [size_eq]
      simp only [Shape.size, RowMajor.size]
      ac_rfl
    · simp only [RowMajor.size]
      ac_rfl
    · intro position inside
      exact (inside_interleave inside).1
    · intro position inside
      exact (inside_interleave inside).2

theorem permutes_gather (moves : 2 ≤ psi.block) (divides : psi.Divides x.shape) :
    psi.Permutes x (psi.gather x) where
  shape := shape_gather divides.1 x
  entry := by
    intro sample blockRow blockColumn channel row column sample_lt blockRow_lt blockColumn_lt
      channel_lt row_lt column_lt
    rw [gather, if_neg (not_isIdentity moves)]
    exact entry_spaceToDepth divides.2.1 divides.2.2 sample_lt blockRow_lt blockColumn_lt
      channel_lt row_lt column_lt
  values := perm_gather divides

/-! ## Images with values -/

/-- Batches of images with values are rearranged, empty or not. -/
theorem forward_populated (populated : 0 < x.shape.sampleSize)
    (counted : x.shape.sampleSize < Count.signedLimit) (divides : psi.Divides x.shape) :
    psi.forward x = .ok (psi.gather x) := by
  obtain ⟨channels_pos, pixels⟩ := Shape.sampleSize_pos_iff.mp populated
  rcases Nat.eq_zero_or_pos x.shape.batch with vacant | some
  · exact forward_vacant divides vacant channels_pos pixels counted
  · exact forward_eq_gather ⟨some, channels_pos, Shape.hasPixels_iff.mp pixels⟩ divides

/-- Where the area of a block divides the channels, it is no more than a sample has values. -/
theorem area_lt_of_populated {shape : Shape} (populated : 0 < shape.sampleSize)
    (counted : shape.sampleSize < Count.signedLimit)
    (channels_dvd : psi.block * psi.block ∣ shape.channels) :
    psi.block * psi.block < Count.limit := by
  obtain ⟨channels_pos, pixels⟩ := Shape.sampleSize_pos_iff.mp populated
  obtain ⟨height_pos, width_pos⟩ := Shape.hasPixels_iff.mp pixels
  calc psi.block * psi.block
      ≤ shape.channels := Nat.le_of_dvd channels_pos channels_dvd
    _ ≤ shape.channels * (shape.height * shape.width) :=
        Nat.le_mul_of_pos_right _ (Nat.mul_pos height_pos width_pos)
    _ = shape.sampleSize := (Nat.mul_assoc ..).symm
    _ < Count.signedLimit := counted
    _ < Count.limit := by decide

theorem inverse_populated (block_pos : 0 < psi.block) (populated : 0 < y.shape.sampleSize)
    (counted : y.shape.sampleSize < Count.signedLimit)
    (channels_dvd : psi.block * psi.block ∣ y.shape.channels) :
    psi.inverse y = .ok (psi.scatter y) := by
  have area_lt := area_lt_of_populated populated counted channels_dvd
  obtain ⟨channels_pos, pixels⟩ := Shape.sampleSize_pos_iff.mp populated
  rcases Nat.eq_zero_or_pos y.shape.batch with vacant | some
  · exact inverse_vacant block_pos area_lt vacant channels_pos pixels channels_dvd counted
  · exact inverse_eq_scatter ⟨some, channels_pos, Shape.hasPixels_iff.mp pixels⟩ area_lt
      channels_dvd

theorem divides_scatter (block_pos : 0 < psi.block) (y : Tensor α) :
    psi.Divides (psi.scatter y).shape := by
  rw [shape_scatter block_pos]
  exact ⟨block_pos, Nat.dvd_mul_left _ _, Nat.dvd_mul_left _ _⟩

/-! ## Images without values -/

/-- Whatever comes out of the forward rearrangement has channels. -/
theorem channels_pos_of_forward (moves : 2 ≤ psi.block) (ran : psi.forward x = .ok y) :
    0 < y.shape.channels := by
  rw [forward, if_neg (not_isIdentity moves)] at ran
  split at ran
  · cases ran
  · split at ran
    · exact channels_pos_of_collected moves (eq_some_of_emptyOf ran)
    · next some =>
      cases ran
      have channels_pos : 0 < x.shape.channels :=
        Nat.pos_of_ne_zero fun none => some (by simp [Shape.size, none])
      exact Nat.mul_pos (Nat.mul_pos (by omega) (by omega)) channels_pos

/-- Whatever goes back has pixels. -/
theorem hasPixels_of_inverse (moves : 2 ≤ psi.block) (ran : psi.inverse y = .ok x) :
    y.shape.hasPixels = true := by
  cases pixels : y.shape.hasPixels with
  | true => rfl
  | false =>
      obtain ⟨fault, refused⟩ := inverse_blank (Bool.eq_false_iff.mpr (not_isIdentity moves)) pixels
      rw [refused] at ran
      cases ran

/-! ## Both ways -/

/-- The forward rearrangement is the stated permutation, and the inverse undoes it, exactly
if an image has a value. -/
theorem exists_forward_permutes_iff (moves : 2 ≤ psi.block)
    (addressable : x.shape.isAddressable = true) (divides : psi.Divides x.shape) :
    (∃ y, psi.forward x = .ok y ∧ psi.Permutes x y ∧ psi.inverse y = .ok x) ↔
      0 < x.shape.sampleSize := by
  apply Iff.intro
  · rintro ⟨y, ran, permutes, back⟩
    have depth_pos := channels_pos_of_forward moves ran
    obtain ⟨rows_pos, columns_pos⟩ := Shape.hasPixels_iff.mp (hasPixels_of_inverse moves back)
    rw [permutes.shape] at depth_pos rows_pos columns_pos
    refine Shape.sampleSize_pos_iff.mpr ⟨Nat.pos_of_mul_pos_left depth_pos, ?_⟩
    exact Shape.hasPixels_iff.mpr ⟨Nat.pos_of_div_pos rows_pos, Nat.pos_of_div_pos columns_pos⟩
  · intro populated
    have counted := Shape.sampleSize_lt addressable populated
    have ran := forward_populated populated counted divides
    have moved_size : (psi.gather x).shape.sampleSize = x.shape.sampleSize := by
      rw [shape_gather divides.1, sampleSize_gathered divides]
    have depth_dvd : psi.block * psi.block ∣ (psi.gather x).shape.channels := by
      rw [shape_gather divides.1]
      exact Nat.dvd_mul_right _ _
    have back : psi.inverse (psi.gather x) = .ok (psi.scatter (psi.gather x)) :=
      inverse_populated divides.1 (moved_size ▸ populated) (moved_size ▸ counted) depth_dvd
    rw [scatter_gather divides] at back
    exact ⟨_, ran, permutes_gather moves divides, back⟩

/-- The inverse rearrangement undoes the stated permutation, and the forward one does it
again, exactly if an image has a value. -/
theorem exists_inverse_permutes_iff (moves : 2 ≤ psi.block)
    (addressable : y.shape.isAddressable = true)
    (channels_dvd : psi.block * psi.block ∣ y.shape.channels) :
    (∃ x, psi.inverse y = .ok x ∧ psi.Permutes x y ∧ psi.forward x = .ok y) ↔
      0 < y.shape.sampleSize := by
  have block_pos : 0 < psi.block := Nat.lt_of_lt_of_le Nat.two_pos moves
  apply Iff.intro
  · rintro ⟨x, back, -, ran⟩
    exact Shape.sampleSize_pos_iff.mpr
      ⟨channels_pos_of_forward moves ran, hasPixels_of_inverse moves back⟩
  · intro populated
    have counted := Shape.sampleSize_lt addressable populated
    have back := inverse_populated block_pos populated counted channels_dvd
    have divides := divides_scatter block_pos y
    have same_size : (psi.scatter y).shape.sampleSize = y.shape.sampleSize := by
      rw [shape_scatter block_pos, sampleSize_spread channels_dvd]
    have ran : psi.forward (psi.scatter y) = .ok (psi.gather (psi.scatter y)) :=
      forward_populated (same_size ▸ populated) (same_size ▸ counted) divides
    have permutes := permutes_gather moves divides
    rw [gather_scatter block_pos channels_dvd] at ran permutes
    exact ⟨_, back, permutes, ran⟩

/-- Both rearrangements move every value to one place, the stated one, and undo each other,
on every tensor that can exist and whose extents fit the block, exactly if its images have
values. -/
theorem permutes_both_ways {psi : Psi} (moves : 2 ≤ psi.block) :
    (∀ x : Tensor α, x.shape.isAddressable = true →
        psi.block ∣ x.shape.height → psi.block ∣ x.shape.width →
          ((∃ y, psi.forward x = .ok y ∧ psi.Permutes x y ∧ psi.inverse y = .ok x) ↔
            0 < x.shape.sampleSize)) ∧
      ∀ y : Tensor α, y.shape.isAddressable = true → psi.block * psi.block ∣ y.shape.channels →
        ((∃ x, psi.inverse y = .ok x ∧ psi.Permutes x y ∧ psi.forward x = .ok y) ↔
          0 < y.shape.sampleSize) := by
  refine ⟨?_, ?_⟩
  · intro x addressable height_dvd width_dvd
    exact exists_forward_permutes_iff moves addressable ⟨by omega, height_dvd, width_dvd⟩
  · intro y addressable channels_dvd
    exact exists_inverse_permutes_iff moves addressable channels_dvd

/-- Two images of two channels, three rows and six columns. -/
def wideImages : Tensor Int :=
  .ofFn ⟨2, 2, 3, 6⟩ fun sample channel row column =>
    36 * sample + 18 * channel + 6 * row + column

/-- A block of three: the last row and the middle column of the second block of an image
come behind seven places of two channels each. -/
theorem permutes_both_ways_wide :
    ∃ y, (Psi.mk 3).forward wideImages = .ok y ∧ y.shape = ⟨2, 18, 1, 2⟩ ∧
      y.entry 1 15 0 1 = 70 ∧ (Psi.mk 3).inverse y = .ok wideImages := by
  have moves : 2 ≤ (Psi.mk 3).block := by decide
  obtain ⟨y, ran, permutes, back⟩ :=
    ((permutes_both_ways moves).1 wideImages (by decide) (by decide) (by decide)).mpr (by decide)
  have value : y.entry 1 15 0 1 = wideImages.entry 1 1 2 4 :=
    permutes.entry 1 2 1 1 0 1 (by decide) (by decide) (by decide) (by decide) (by decide)
      (by decide)
  rw [wideImages, Tensor.entry_ofFn] at value
  exact ⟨y, ran, permutes.shape, value, back⟩

/-- An empty batch of images with two channels and two columns, but without rows. -/
def rowlessImages : Tensor Int := .ofFn ⟨0, 2, 0, 2⟩ fun _ _ _ _ => 0

/-- Behind a block of two such images have two rows, where they should have none. -/
theorem gains_rows_rowlessImages :
    2 ∣ rowlessImages.shape.height ∧ 2 ∣ rowlessImages.shape.width ∧
      ∃ y, (Psi.mk 2).forward rowlessImages = .ok y ∧ y.shape = ⟨0, 8, 2, 1⟩ ∧
        y.shape ≠ ⟨0, 2 * 2 * rowlessImages.shape.channels, rowlessImages.shape.height / 2,
          rowlessImages.shape.width / 2⟩ := by
  refine ⟨by decide, by decide, ⟨⟨0, 8, 2, 1⟩, #[], rfl⟩, rfl, rfl, ?_⟩
  intro same
  exact absurd (congrArg Shape.height same) (by decide)

end Psi

end InvertibleNet
