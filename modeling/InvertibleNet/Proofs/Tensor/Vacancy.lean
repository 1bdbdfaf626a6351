/-
# Empty tensors

A tensor without values is rearranged by its extents alone, and a zero among them
may be read as the extent of another axis. Two things stay certain. A rearrangement
keeps the number of samples. And going back from images without pixels never
succeeds, while going back from an empty batch of images does, as long as one
sample would have room. So whatever a batch of images with pixels was rearranged
to can be taken back, be the batch empty or not. Images without rows are another
matter: an empty batch of them gains rows on the way.
-/

import InvertibleNet.Proofs.Tensor.Rearrangement

namespace InvertibleNet

universe u

namespace RowMajor

/-- Where the first extent is asked for as it is, it stays. -/
theorem resolveExtents?_cons (extent : Nat) (current requested : List Nat) :
    resolveExtents? (extent :: current) (extent :: requested) =
      (resolveExtents? current requested).map (extent :: ·) := by
  simp only [resolveExtents?, List.head?_cons, List.tail_cons, ite_self]
  cases resolveExtents? current requested with
  | none => rfl
  | some rest => rfl

theorem resolved_of_reshaped {current requested extents : List Nat}
    (seen : reshaped? current requested = some extents) :
    resolveExtents? current requested = some extents := by
  obtain ⟨resolved, named, sized⟩ := Option.bind_eq_some_iff.mp seen
  split at sized
  · cases sized
    exact named
  · cases sized

theorem head_reshaped {extent : Nat} {current requested extents : List Nat}
    (found : reshaped? (extent :: current) (extent :: requested) = some extents) :
    extents.head? = some extent := by
  have named := resolved_of_reshaped found
  rw [resolveExtents?_cons] at named
  obtain ⟨rest, -, rfl⟩ := Option.map_eq_some_iff.mp named
  rfl

theorem resolveExtents?_of_ne_zero (current : List Nat) {requested : List Nat}
    (named : ∀ extent ∈ requested, extent ≠ 0) :
    resolveExtents? current requested = some requested := by
  induction requested generalizing current with
  | nil => rfl
  | cons extent requested ih =>
      obtain ⟨here, rest⟩ := List.forall_mem_cons.mp named
      simp [resolveExtents?, here, ih current.tail rest]

/-- A zero behind the last axis of the array stands for nothing. -/
theorem resolveExtents?_of_zero {current requested : List Nat}
    (zero : 0 ∈ requested.drop current.length) : resolveExtents? current requested = none := by
  induction requested generalizing current with
  | nil => simp at zero
  | cons extent requested ih =>
      cases current with
      | nil =>
          rcases List.mem_cons.mp zero with rfl | behind
          · rfl
          · have rest : resolveExtents? [] requested = none := ih behind
            simp [resolveExtents?, rest]
      | cons here current =>
          have rest : resolveExtents? current requested = none := ih zero
          simp [resolveExtents?, rest]

/-- What requested extents stand for, one after the other. -/
theorem resolveExtents?_cons_eq_some_iff {extent : Nat} {current requested extents : List Nat} :
    resolveExtents? current (extent :: requested) = some extents ↔
      ∃ here rest, (if extent = 0 then current.head? else some extent) = some here ∧
        resolveExtents? current.tail requested = some rest ∧ here :: rest = extents := by
  rw [resolveExtents?]
  split <;> simp [Option.bind_eq_some_iff]

end RowMajor

/-- How many values a sample of the shape has. -/
def Shape.sampleSize (shape : Shape) : Nat := shape.channels * shape.height * shape.width

theorem Shape.size_eq (shape : Shape) : shape.size = shape.batch * shape.sampleSize := by
  unfold size sampleSize
  ac_rfl

/-- An empty batch can exist exactly if the values of one sample can be counted. -/
theorem Shape.isAddressable_vacant_iff {shape : Shape} (vacant : shape.batch = 0)
    (channels_pos : 0 < shape.channels) (pixels : shape.hasPixels = true) :
    shape.isAddressable = true ↔ shape.sampleSize < Count.signedLimit := by
  obtain ⟨batch, channels, height, width⟩ := shape
  cases vacant
  obtain ⟨height_pos, width_pos⟩ := hasPixels_iff.mp pixels
  have height_ne := Nat.ne_of_gt height_pos
  have width_ne := Nat.ne_of_gt width_pos
  have channels_ne := Nat.ne_of_gt channels_pos
  have limit_pos : 0 < Count.signedLimit := by decide
  simp [isAddressable, toList, size, sampleSize, channels_ne, height_ne, width_ne, limit_pos]

theorem Shape.sampleSize_pos_iff {shape : Shape} :
    0 < shape.sampleSize ↔ 0 < shape.channels ∧ shape.hasPixels = true := by
  rw [sampleSize, hasPixels_iff]
  simp only [Nat.pos_iff_ne_zero, ne_eq, Nat.mul_eq_zero, not_or, and_assoc]

/-- Where a batch of images with values can exist, the values of one can be counted. -/
theorem Shape.sampleSize_lt {shape : Shape} (addressable : shape.isAddressable = true)
    (populated : 0 < shape.sampleSize) : shape.sampleSize < Count.signedLimit := by
  obtain ⟨channels_pos, pixels⟩ := sampleSize_pos_iff.mp populated
  rcases Nat.eq_zero_or_pos shape.batch with vacant | some
  · exact (isAddressable_vacant_iff vacant channels_pos pixels).mp addressable
  · obtain ⟨-, bytes⟩ := (Bool.and_eq_true _ _).mp addressable
    have counted : 4 * shape.size < Count.signedLimit := of_decide_eq_true bytes
    have sample_le : shape.sampleSize ≤ shape.size :=
      calc shape.sampleSize
          ≤ shape.batch * shape.sampleSize := Nat.le_mul_of_pos_left _ some
        _ = shape.size := shape.size_eq.symm
    omega

theorem Shape.toList_injective {shape other : Shape} (same : shape.toList = other.toList) :
    shape = other := by
  cases shape
  cases other
  cases same
  rfl

namespace Tensor

variable {α : Type u}

/-- Two tensors without samples are one if they have the same shape. -/
theorem eq_of_vacant {x y : Tensor α} (shapes : x.shape = y.shape) (vacant : x.shape.batch = 0) :
    x = y := by
  refine eq_of_values shapes ?_
  have none : x.values.size = 0 := by simp [x.size_eq, Shape.size, vacant]
  have other : y.values.size = 0 := by simp [y.size_eq, ← shapes, Shape.size, vacant]
  rw [Array.eq_empty_of_size_eq_zero none, Array.eq_empty_of_size_eq_zero other]

/-- An empty tensor has the extents that it was made from. -/
theorem eq_toList_of_empty {extents : List Nat} {x : Tensor α}
    (made : empty? extents = some x) : extents = x.shape.toList := by
  unfold empty? at made
  split at made
  · dsimp only at made
    split at made
    · unfold ofValues? at made
      split at made
      · cases made
        rfl
      · cases made
    · cases made
  · cases made

theorem exists_empty {shape : Shape} (vacant : shape.batch = 0)
    (addressable : shape.isAddressable = true) :
    ∃ x : Tensor α, empty? shape.toList = some x := by
  have none : (#[] : Array α).size = shape.size := by simp [Shape.size, vacant]
  refine ⟨⟨shape, #[], none⟩, ?_⟩
  simp only [empty?, Shape.toList, addressable, if_true, ofValues?, none, dite_true]

end Tensor

namespace Psi

open RowMajor

variable {α : Type u} {psi : Psi} {shape : Shape}

theorem eq_some_of_emptyOf {extents? : Option (List Nat)} {moved : Tensor α}
    (made : emptyOf extents? = .ok moved) : extents? = some moved.shape.toList := by
  unfold emptyOf at made
  split at made
  case h_2 => cases made
  case h_1 result found =>
    cases made
    obtain ⟨extents, rfl, built⟩ := Option.bind_eq_some_iff.mp found
    rw [Tensor.eq_toList_of_empty built]

theorem shape_emptyOf {moved : Tensor α} (made : emptyOf (some shape.toList) = .ok moved) :
    moved.shape = shape :=
  (Shape.toList_injective (Option.some.inj (eq_some_of_emptyOf made))).symm

/-- An empty tensor that can exist is the one of its extents. -/
theorem emptyOf_toList {x : Tensor α} (vacant : x.shape.batch = 0)
    (addressable : x.shape.isAddressable = true) : emptyOf (some x.shape.toList) = .ok x := by
  obtain ⟨made, found⟩ : ∃ made : Tensor α, Tensor.empty? x.shape.toList = some made :=
    Tensor.exists_empty vacant addressable
  have shapes := (Shape.toList_injective (Tensor.eq_toList_of_empty found)).symm
  have same : made = x := Tensor.eq_of_vacant shapes (shapes ▸ vacant)
  simp only [emptyOf, Option.bind_some, found, same]

/-! ## The batch -/

theorem head_collect (extents : List Nat) : (collect extents).head? = extents.head? := by
  unfold collect
  split
  · rfl
  · rfl

theorem batch_collected {block : Nat} {shape : Shape} {moved : Tensor α}
    (moves : emptyOf (collectedExtents? block shape) = .ok moved) :
    moved.shape.batch = shape.batch := by
  obtain ⟨six, seen, again⟩ := Option.bind_eq_some_iff.mp (eq_some_of_emptyOf moves)
  have six_head := RowMajor.head_reshaped seen
  rw [← head_collect] at six_head
  obtain ⟨rest, shifted⟩ := List.head?_eq_some_iff.mp six_head
  rw [shifted] at again
  exact Option.some.inj (RowMajor.head_reshaped again)

/-- A rearrangement keeps the batch. -/
theorem batch_forward [Zero α] {x moved : Tensor α}
    (moves : psi.forward x = .ok moved) : moved.shape.batch = x.shape.batch := by
  unfold forward at moves
  split at moves
  · cases moves
    rfl
  · split at moves
    · cases moves
    · split at moves
      · exact batch_collected moves
      · cases moves
        rfl

/-! ## The extents of empty tensors -/

/-- Rearranging keeps the number of values of a sample. -/
theorem sampleSize_spread (channels_dvd : psi.block * psi.block ∣ shape.channels) :
    (psi.spread shape).sampleSize = shape.sampleSize := by
  calc shape.channels / (psi.block * psi.block) * (shape.height * psi.block) *
        (shape.width * psi.block)
      = psi.block * psi.block * (shape.channels / (psi.block * psi.block)) * shape.height *
          shape.width := by ac_rfl
    _ = shape.channels * shape.height * shape.width := by rw [Nat.mul_div_cancel' channels_dvd]

theorem hasPixels_spread (block_pos : 0 < psi.block) (pixels : shape.hasPixels = true) :
    (psi.spread shape).hasPixels = true := by
  obtain ⟨height_pos, width_pos⟩ := Shape.hasPixels_iff.mp pixels
  exact Shape.hasPixels_iff.mpr ⟨Nat.mul_pos height_pos block_pos, Nat.mul_pos width_pos block_pos⟩

/-- An image without pixels has no axes beside its blocks. -/
theorem interleavedExtents?_blank (block : Nat) (blank : shape.hasPixels = false) :
    interleavedExtents? block shape = none := by
  obtain ⟨batch, depth, rows, columns⟩ := shape
  have zero : 0 ∈ [rows, columns] := by
    simp only [Shape.hasPixels, Bool.and_eq_false_iff, decide_eq_false_iff_not] at blank
    simp only [List.mem_cons, List.not_mem_nil, or_false]
    omega
  have unseen : resolveExtents? (Shape.toList ⟨batch, depth, rows, columns⟩)
      [batch, block, block, depth / (block * block), rows, columns] = none :=
    resolveExtents?_of_zero zero
  simp only [interleavedExtents?, reshaped?, unseen]
  rfl

/-- An empty batch of images is seen with the axes that any other batch of them has. -/
theorem interleavedExtents?_vacant (block_pos : 0 < psi.block) (vacant : shape.batch = 0)
    (channels_pos : 0 < shape.channels) (pixels : shape.hasPixels = true)
    (channels_dvd : psi.block * psi.block ∣ shape.channels) :
    interleavedExtents? psi.block shape = some (psi.spread shape).toList := by
  obtain ⟨batch, depth, rows, columns⟩ := shape
  obtain ⟨channels, channels_eq⟩ := channels_dvd
  simp only at channels_eq vacant channels_pos
  subst channels_eq vacant
  have area_pos := Nat.mul_pos block_pos block_pos
  have channels_ne := Nat.ne_of_gt (Nat.pos_of_mul_pos_left channels_pos)
  obtain ⟨rows_pos, columns_pos⟩ : 0 < rows ∧ 0 < columns := Shape.hasPixels_iff.mp pixels
  have six : reshaped? [0, psi.block * psi.block * channels, rows, columns]
      [0, psi.block, psi.block, channels, rows, columns] =
        some [0, psi.block, psi.block, channels, rows, columns] := by
    have named : resolveExtents? [psi.block * psi.block * channels, rows, columns]
        [psi.block, psi.block, channels, rows, columns] =
          some [psi.block, psi.block, channels, rows, columns] :=
      resolveExtents?_of_ne_zero _ (by simp; omega)
    simp [reshaped?, resolveExtents?_cons, named, size]
  have four : reshaped? [0, channels, rows, psi.block, columns, psi.block]
      [0, channels, rows * psi.block, columns * psi.block] =
        some [0, channels, rows * psi.block, columns * psi.block] := by
    have rows_ne := Nat.ne_of_gt (Nat.mul_pos rows_pos block_pos)
    have columns_ne := Nat.ne_of_gt (Nat.mul_pos columns_pos block_pos)
    have named : resolveExtents? [channels, rows, psi.block, columns, psi.block]
        [channels, rows * psi.block, columns * psi.block] =
          some [channels, rows * psi.block, columns * psi.block] :=
      resolveExtents?_of_ne_zero _ (by simp; omega)
    simp [reshaped?, resolveExtents?_cons, named, size]
  simp only [interleavedExtents?, spread, Shape.toList, Nat.mul_div_cancel_left _ area_pos, six]
  exact four

theorem hasPixels_gathered (divides : psi.Divides shape) (pixels : shape.hasPixels = true) :
    (psi.gathered shape).hasPixels = true := by
  obtain ⟨block_pos, height_dvd, width_dvd⟩ := divides
  obtain ⟨height_pos, width_pos⟩ := Shape.hasPixels_iff.mp pixels
  exact Shape.hasPixels_iff.mpr ⟨Nat.div_pos (Nat.le_of_dvd height_pos height_dvd) block_pos,
    Nat.div_pos (Nat.le_of_dvd width_pos width_dvd) block_pos⟩

theorem sampleSize_gathered (divides : psi.Divides shape) :
    (psi.gathered shape).sampleSize = shape.sampleSize := by
  have channels_dvd : psi.block * psi.block ∣ (psi.gathered shape).channels :=
    Nat.dvd_mul_right _ _
  rw [← sampleSize_spread channels_dvd, spread_gathered divides]

/-- An empty batch of images is seen with the axes that any other batch of them has. -/
theorem collectedExtents?_vacant (divides : psi.Divides shape) (vacant : shape.batch = 0)
    (channels_pos : 0 < shape.channels) (pixels : shape.hasPixels = true) :
    collectedExtents? psi.block shape = some (psi.gathered shape).toList := by
  have moved_pixels := hasPixels_gathered divides pixels
  obtain ⟨batch, channels, height, width⟩ := shape
  obtain ⟨block_pos, ⟨rows, height_eq⟩, ⟨columns, width_eq⟩⟩ := divides
  simp only at height_eq width_eq vacant channels_pos
  subst height_eq width_eq vacant
  simp only [gathered, Nat.mul_div_cancel_left _ block_pos, Shape.hasPixels_iff] at moved_pixels
  obtain ⟨rows_pos, columns_pos⟩ := moved_pixels
  have six : reshaped? [0, channels, psi.block * rows, psi.block * columns]
      [0, channels, rows, psi.block, columns, psi.block] =
        some [0, channels, rows, psi.block, columns, psi.block] := by
    have named : resolveExtents? [channels, psi.block * rows, psi.block * columns]
        [channels, rows, psi.block, columns, psi.block] =
          some [channels, rows, psi.block, columns, psi.block] :=
      resolveExtents?_of_ne_zero _ (by simp; omega)
    simp [reshaped?, resolveExtents?_cons, named, size]
  have four : reshaped? [0, psi.block, psi.block, channels, rows, columns]
      [0, psi.block * psi.block * channels, rows, columns] =
        some [0, psi.block * psi.block * channels, rows, columns] := by
    have depth_ne := Nat.ne_of_gt (Nat.mul_pos (Nat.mul_pos block_pos block_pos) channels_pos)
    have named : resolveExtents? [psi.block, psi.block, channels, rows, columns]
        [psi.block * psi.block * channels, rows, columns] =
          some [psi.block * psi.block * channels, rows, columns] :=
      resolveExtents?_of_ne_zero _ (by simp; omega)
    simp [reshaped?, resolveExtents?_cons, named, size]
  simp only [collectedExtents?, gathered, Shape.toList, Nat.mul_div_cancel_left _ block_pos, six]
  exact four

theorem isAddressable_emptyOf {moved : Tensor α} (made : emptyOf (some shape.toList) = .ok moved) :
    shape.isAddressable = true := by
  by_contra crowded
  simp [emptyOf, Tensor.empty?, Shape.toList, crowded] at made

/-- Images without columns have no axes beside their blocks. -/
theorem collectedExtents?_thin (block : Nat) (thin : shape.width = 0) :
    collectedExtents? block shape = none := by
  obtain ⟨batch, channels, height, width⟩ := shape
  cases thin
  have unseen : resolveExtents? (Shape.toList ⟨batch, channels, height, 0⟩)
      [batch, channels, height / block, block, 0 / block, block] = none :=
    resolveExtents?_of_zero (by simp [Shape.toList])
  simp only [collectedExtents?, reshaped?, unseen]
  rfl

/-- An array that is seen with axes for the blocks has an extent for each of them. -/
theorem axes_of_reshaped {batch channels height width rows block columns : Nat}
    {six : List Nat} (block_ne : block ≠ 0)
    (seen : reshaped? [batch, channels, height, width]
      [batch, channels, rows, block, columns, block] = some six) :
    ∃ up across, six = [batch, channels, up, block, across, block] := by
  have named := resolved_of_reshaped seen
  simp only [resolveExtents?_cons, Option.map_eq_some_iff, resolveExtents?_cons_eq_some_iff,
    if_neg block_ne, Option.some.injEq] at named
  obtain ⟨_, ⟨_, ⟨up, _, -, ⟨_, _, rfl, ⟨across, _, -, ⟨_, _, rfl, last, rfl⟩, rfl⟩, rfl⟩, rfl⟩,
    rfl⟩, rfl⟩ := named
  cases last
  exact ⟨up, across, rfl⟩

/-- The forward rearrangement of an empty tensor always has channels: where none are
asked for, it has those of an axis of the blocks. -/
theorem channels_pos_of_collected {block : Nat} {moved : Shape} (moves : 2 ≤ block)
    (found : collectedExtents? block shape = some moved.toList) : 0 < moved.channels := by
  obtain ⟨batch, channels, height, width⟩ := shape
  obtain ⟨_, depth, _, _⟩ := moved
  obtain ⟨six, seen, again⟩ := Option.bind_eq_some_iff.mp found
  obtain ⟨up, across, rfl⟩ := axes_of_reshaped (by omega) seen
  have named := resolved_of_reshaped again
  simp only [collect, resolveExtents?_cons, Option.map_eq_some_iff] at named
  obtain ⟨_, named, extents⟩ := named
  cases extents
  obtain ⟨_, _, depth_eq, -, extents⟩ := resolveExtents?_cons_eq_some_iff.mp named
  cases extents
  split at depth_eq
  · cases depth_eq
    exact Nat.lt_of_lt_of_le Nat.two_pos moves
  · next some =>
    cases depth_eq
    exact Nat.pos_of_ne_zero some

variable [Zero α]

/-! ## Going back from empty tensors -/

/-- A rearrangement that moves anything refuses to go back from images without pixels. -/
theorem inverse_blank {x : Tensor α} (moves : psi.isIdentity = false)
    (blank : x.shape.hasPixels = false) : ∃ fault, psi.inverse x = .error fault := by
  have none : x.shape.size = 0 := by
    simp only [Shape.hasPixels, Bool.and_eq_false_iff, decide_eq_false_iff_not,
      Nat.not_lt, Nat.le_zero] at blank
    rcases blank with rows | columns
    · simp [Shape.size, rows]
    · simp [Shape.size, columns]
  unfold inverse
  rw [moves]
  simp only [Bool.false_eq_true, if_false, none, if_true, interleavedExtents?_blank _ blank]
  split
  · exact ⟨_, rfl⟩
  · split
    · exact ⟨_, rfl⟩
    · exact ⟨_, rfl⟩

/-- Going back from images with pixels, of an empty batch or not, leads to one shape. -/
theorem shape_inverse_of_hasPixels {x moved : Tensor α} (block_pos : 0 < psi.block)
    (area_lt : psi.block * psi.block < Count.limit) (channels_pos : 0 < x.shape.channels)
    (divides : psi.block * psi.block ∣ x.shape.channels) (pixels : x.shape.hasPixels = true)
    (moves : psi.inverse x = .ok moved) : moved.shape = psi.spread x.shape := by
  cases identity : psi.isIdentity with
  | true =>
      rw [inverse, if_pos identity] at moves
      cases moves
      simp [spread, block_eq_one block_pos identity]
  | false =>
      rw [inverse, identity, Count.checked_eq_some_iff.mpr ⟨area_lt, rfl⟩] at moves
      simp only [Bool.false_eq_true, if_false, Nat.mod_eq_zero_of_dvd divides, ne_eq,
        not_true_eq_false] at moves
      split at moves
      · next none =>
        have vacant : x.shape.batch = 0 := by
          by_contra some
          exact Shape.IsFull.size_ne_zero ⟨Nat.pos_of_ne_zero some, channels_pos,
            Shape.hasPixels_iff.mp pixels⟩ none
        rw [interleavedExtents?_vacant block_pos vacant channels_pos pixels divides] at moves
        exact shape_emptyOf moves
      · cases moves
        rfl

/-- Where going back leads to images with pixels, it has started from such. -/
theorem shape_inverse {x moved : Tensor α} (block_pos : 0 < psi.block)
    (area_lt : psi.block * psi.block < Count.limit) (channels_pos : 0 < x.shape.channels)
    (moves : psi.inverse x = .ok moved) (reached : moved.shape.hasPixels = true) :
    psi.block * psi.block ∣ x.shape.channels ∧ x.shape.hasPixels = true ∧
      moved.shape = psi.spread x.shape := by
  have divides : psi.block * psi.block ∣ x.shape.channels := by
    by_contra misfit
    rw [inverse_refuses block_pos area_lt misfit] at moves
    cases moves
  have pixels : x.shape.hasPixels = true := by
    cases identity : psi.isIdentity with
    | true =>
        rw [inverse, if_pos identity] at moves
        cases moves
        exact reached
    | false =>
        by_contra blank
        obtain ⟨fault, refused⟩ := inverse_blank identity (Bool.eq_false_iff.mpr blank)
        rw [refused] at moves
        cases moves
  exact ⟨divides, pixels,
    shape_inverse_of_hasPixels block_pos area_lt channels_pos divides pixels moves⟩

/-- Going back succeeds on the empty batches that can exist, too. -/
theorem inverse_vacant {x : Tensor α} (block_pos : 0 < psi.block)
    (area_lt : psi.block * psi.block < Count.limit) (vacant : x.shape.batch = 0)
    (channels_pos : 0 < x.shape.channels) (pixels : x.shape.hasPixels = true)
    (channels_dvd : psi.block * psi.block ∣ x.shape.channels)
    (room : x.shape.sampleSize < Count.signedLimit) : psi.inverse x = .ok (psi.scatter x) := by
  by_cases identity : psi.isIdentity = true
  · rw [inverse, scatter, if_pos identity, if_pos identity]
  · have addressable : (psi.spread x.shape).isAddressable = true := by
      have left_pos : 0 < (psi.spread x.shape).channels :=
        Nat.div_pos (Nat.le_of_dvd channels_pos channels_dvd) (Nat.mul_pos block_pos block_pos)
      have none : (psi.spread x.shape).batch = 0 := vacant
      rwa [Shape.isAddressable_vacant_iff none left_pos (hasPixels_spread block_pos pixels),
        sampleSize_spread channels_dvd]
    have none : x.shape.size = 0 := by simp [Shape.size, vacant]
    have shapes := shape_scatter block_pos x
    rw [← shapes] at addressable
    have samples : (psi.scatter x).shape.batch = 0 := by rw [shapes]; exact vacant
    rw [inverse, if_neg identity, Count.checked_eq_some_iff.mpr ⟨area_lt, rfl⟩]
    simp only [Nat.mod_eq_zero_of_dvd channels_dvd, ne_eq, not_true_eq_false, if_false, none,
      if_true, interleavedExtents?_vacant block_pos vacant channels_pos pixels channels_dvd,
      ← shapes, emptyOf_toList samples addressable]

/-- So does going forward. -/
theorem forward_vacant {x : Tensor α} (divides : psi.Divides x.shape) (vacant : x.shape.batch = 0)
    (channels_pos : 0 < x.shape.channels) (pixels : x.shape.hasPixels = true)
    (room : x.shape.sampleSize < Count.signedLimit) : psi.forward x = .ok (psi.gather x) := by
  by_cases identity : psi.isIdentity = true
  · rw [forward, gather, if_pos identity, if_pos identity]
  · have shapes := shape_gather divides.1 x
    have samples : (psi.gather x).shape.batch = 0 := by rw [shapes]; exact vacant
    have addressable : (psi.gather x).shape.isAddressable = true := by
      have depth_pos : 0 < (psi.gathered x.shape).channels :=
        Nat.mul_pos (Nat.mul_pos divides.1 divides.1) channels_pos
      rw [shapes] at samples ⊢
      rwa [Shape.isAddressable_vacant_iff samples depth_pos (hasPixels_gathered divides pixels),
        sampleSize_gathered divides]
    have none : x.shape.size = 0 := by simp [Shape.size, vacant]
    have fits := not_not_intro divides.2
    rw [forward, if_neg identity, if_neg (mt misfits_iff.mp fits), if_pos none,
      collectedExtents?_vacant divides vacant channels_pos pixels, ← shapes,
      emptyOf_toList samples addressable]

/-! ## Going forward and back again -/

variable {x moved : Tensor α}

/-- What a rearrangement gives on images with pixels, also on an empty batch of them. -/
theorem eq_of_forward (block_pos : 0 < psi.block) (channels_pos : 0 < x.shape.channels)
    (pixels : x.shape.hasPixels = true) (moves : psi.forward x = .ok moved) :
    psi.Divides x.shape ∧ moved = psi.gather x ∧
      (psi.isIdentity = false → x.shape.batch = 0 → x.shape.sampleSize < Count.signedLimit) := by
  cases identity : psi.isIdentity with
  | true =>
      have block := block_eq_one block_pos identity
      rw [forward, if_pos identity] at moves
      cases moves
      have divides : psi.Divides x.shape := by
        simp [Divides, block]
      exact ⟨divides, by rw [gather, if_pos identity], fun moves => by cases moves⟩
  | false =>
      rw [forward, if_neg (by simp [identity])] at moves
      split at moves
      · cases moves
      · next fits =>
        rw [misfits_iff, Decidable.not_not] at fits
        have divides : psi.Divides x.shape := ⟨block_pos, fits⟩
        split at moves
        · next none =>
          have vacant : x.shape.batch = 0 := by
            by_contra some
            exact Shape.IsFull.size_ne_zero ⟨Nat.pos_of_ne_zero some, channels_pos,
              Shape.hasPixels_iff.mp pixels⟩ none
          rw [collectedExtents?_vacant divides vacant channels_pos pixels] at moves
          have shape := (shape_emptyOf moves).trans (shape_gather block_pos x).symm
          have room := isAddressable_emptyOf moves
          have samples : (psi.gathered x.shape).batch = 0 := vacant
          have depth_pos : 0 < (psi.gathered x.shape).channels :=
            Nat.mul_pos (Nat.mul_pos block_pos block_pos) channels_pos
          rw [Shape.isAddressable_vacant_iff samples depth_pos (hasPixels_gathered divides pixels),
            sampleSize_gathered divides] at room
          exact ⟨divides, Tensor.eq_of_vacant shape (shape_emptyOf moves ▸ vacant),
            fun _ _ => room⟩
        · next some =>
          cases moves
          exact ⟨divides, by rw [gather, if_neg (by simp [identity])], fun _ vacant =>
            absurd (by simp [Shape.size, vacant]) some⟩

/-- Whatever has the shape of a result can be taken back. -/
theorem inverse_of_forward (block_pos : 0 < psi.block)
    (area_lt : psi.block * psi.block < Count.limit) (channels_pos : 0 < x.shape.channels)
    (pixels : x.shape.hasPixels = true) (moves : psi.forward x = .ok moved) {y : Tensor α}
    (shapes : y.shape = moved.shape) : psi.inverse y = .ok (psi.scatter y) := by
  obtain ⟨divides, rfl, room⟩ := eq_of_forward block_pos channels_pos pixels moves
  rw [shape_gather block_pos] at shapes
  have channels_dvd : psi.block * psi.block ∣ y.shape.channels := by
    rw [shapes]
    exact Nat.dvd_mul_right _ _
  have depth_pos : 0 < y.shape.channels := by
    rw [shapes]
    exact Nat.mul_pos (Nat.mul_pos block_pos block_pos) channels_pos
  have moved_pixels : y.shape.hasPixels = true := shapes ▸ hasPixels_gathered divides pixels
  rcases Nat.eq_zero_or_pos y.shape.batch with vacant | some
  · cases identity : psi.isIdentity with
    | true => rw [inverse, scatter, if_pos identity, if_pos identity]
    | false =>
        have samples : x.shape.batch = 0 := by rw [shapes] at vacant; exact vacant
        have size : y.shape.sampleSize < Count.signedLimit := by
          rw [shapes, sampleSize_gathered divides]
          exact room identity samples
        exact inverse_vacant block_pos area_lt vacant depth_pos moved_pixels channels_dvd size
  · exact inverse_eq_scatter ⟨some, depth_pos, Shape.hasPixels_iff.mp moved_pixels⟩ area_lt
      channels_dvd

/-- Images that a rearrangement gives pixels have had some before, unless they had no rows. -/
theorem hasPixels_of_forward (moves : psi.forward x = .ok moved)
    (reached : moved.shape.hasPixels = true) (rows : 0 < x.shape.height) :
    x.shape.hasPixels = true := by
  rcases Nat.eq_zero_or_pos x.shape.width with thin | columns
  · rw [forward] at moves
    split at moves
    · cases moves
      exact reached
    · split at moves
      · cases moves
      · rw [if_pos (by simp [Shape.size, thin]), collectedExtents?_thin _ thin] at moves
        cases moves
  · exact Shape.hasPixels_iff.mpr ⟨rows, columns⟩

end Psi

end InvertibleNet
