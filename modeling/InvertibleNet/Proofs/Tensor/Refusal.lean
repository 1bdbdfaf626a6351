/-
# What a rearrangement refuses

On tensors without an empty axis both rearrangements are decided by one divisibility:
the block has to divide height and width on the way there, and its area the channels on
the way back. Whatever else there is is refused with the shape of the tensor. The counts
that come up are no larger than the tensor, so they fit a word wherever its values can be
counted. One of them comes up before the tensor is looked at: the area of the block on the
way back. A block whose area no word holds breaks that way off.
-/

import InvertibleNet.Proofs.Tensor.Rearrangement

namespace InvertibleNet.Psi

universe u

variable {α : Type u} [Zero α] {psi : Psi} {x : Tensor α}

/-! ## Counts -/

/-- The channels behind the rearrangement are no more than the values in front of it. -/
theorem area_mul_channels_le_size {shape : Shape} (full : shape.IsFull)
    (divides : psi.Divides shape) :
    psi.block * psi.block * shape.channels ≤ shape.size := by
  obtain ⟨batch_pos, -, height_pos, width_pos⟩ := full
  obtain ⟨-, height_dvd, width_dvd⟩ := divides
  have height_le := Nat.le_of_dvd height_pos height_dvd
  have width_le := Nat.le_of_dvd width_pos width_dvd
  calc psi.block * psi.block * shape.channels
      ≤ shape.height * shape.width * shape.channels :=
        Nat.mul_le_mul_right _ (Nat.mul_le_mul height_le width_le)
    _ ≤ shape.batch * (shape.height * shape.width * shape.channels) :=
        Nat.le_mul_of_pos_left _ batch_pos
    _ = shape.size := by
        unfold Shape.size
        ring

/-- Height and width in front of the rearrangement are no more than the values behind it. -/
theorem extent_mul_block_le_size {shape : Shape} (full : shape.IsFull)
    (channels_dvd : psi.block * psi.block ∣ shape.channels) :
    shape.height * psi.block ≤ shape.size ∧ shape.width * psi.block ≤ shape.size := by
  obtain ⟨batch_pos, channels_pos, height_pos, width_pos⟩ := full
  have block_le : psi.block ≤ shape.channels :=
    (Nat.le_mul_self psi.block).trans (Nat.le_of_dvd channels_pos channels_dvd)
  have rows : shape.height * shape.channels * (shape.batch * shape.width) = shape.size := by
    unfold Shape.size
    ring
  have columns : shape.width * shape.channels * (shape.batch * shape.height) = shape.size := by
    unfold Shape.size
    ring
  refine ⟨?_, ?_⟩
  · calc shape.height * psi.block ≤ shape.height * shape.channels := Nat.mul_le_mul_left _ block_le
      _ ≤ shape.size := rows ▸ Nat.le_mul_of_pos_right _ (Nat.mul_pos batch_pos width_pos)
  · calc shape.width * psi.block ≤ shape.width * shape.channels := Nat.mul_le_mul_left _ block_le
      _ ≤ shape.size := columns ▸ Nat.le_mul_of_pos_right _ (Nat.mul_pos batch_pos height_pos)

/-- A block whose area divides the channels of a full shape has an area that fits a word. -/
theorem area_lt_of_dvd {shape : Shape} (full : shape.IsFull) (counted : shape.size < Count.limit)
    (fits : psi.block * psi.block ∣ shape.channels) : psi.block * psi.block < Count.limit := by
  obtain ⟨batch_pos, channels_pos, height_pos, width_pos⟩ := full
  have rest_pos := Nat.mul_pos (Nat.mul_pos batch_pos height_pos) width_pos
  calc psi.block * psi.block
      ≤ shape.channels := Nat.le_of_dvd channels_pos fits
    _ ≤ shape.channels * (shape.batch * shape.height * shape.width) :=
        Nat.le_mul_of_pos_right _ rest_pos
    _ = shape.size := by
        unfold Shape.size
        ring
    _ < Count.limit := counted

/-! ## Results -/

theorem forward_of_identity (identity : psi.block ≤ 1) : psi.forward x = .ok x :=
  if_pos (isIdentity_iff.mpr identity)

theorem inverse_of_identity (identity : psi.block ≤ 1) : psi.inverse x = .ok x :=
  if_pos (isIdentity_iff.mpr identity)

/-- A block that does not divide height and width is refused, whatever the other extents
are. -/
theorem forward_refuses (moves : 2 ≤ psi.block)
    (misfit : ¬ (psi.block ∣ x.shape.height ∧ psi.block ∣ x.shape.width)) :
    psi.forward x = .error (.shape (.psiMisfit psi.block x.shape)) := by
  rw [forward, if_neg (not_isIdentity moves), if_pos (misfits_iff.mpr misfit)]

/-- A block whose area no word holds breaks the way back off. -/
theorem inverse_overflows (wide : Count.limit ≤ psi.block * psi.block) :
    psi.inverse x = .error (.breakdown .overflow) := by
  have moves : 2 ≤ psi.block := by
    by_contra identity
    have small : psi.block * psi.block ≤ 1 * 1 := Nat.mul_le_mul (by omega) (by omega)
    unfold Count.limit at wide
    omega
  rw [inverse, if_neg (not_isIdentity moves), Count.checked_eq_none_iff.mpr wide]

/-- The forward rearrangement of a full tensor. -/
theorem forward_cases (psi : Psi) (full : x.shape.IsFull) :
    ((psi.block ≤ 1 ∨ psi.block ∣ x.shape.height ∧ psi.block ∣ x.shape.width) ∧
        psi.forward x = .ok (psi.gather x)) ∨
      (¬ (psi.block ≤ 1 ∨ psi.block ∣ x.shape.height ∧ psi.block ∣ x.shape.width) ∧
        psi.forward x = .error (.shape (.psiMisfit psi.block x.shape))) := by
  by_cases identity : psi.block ≤ 1
  · refine .inl ⟨.inl identity, ?_⟩
    rw [forward_of_identity identity, gather, if_pos (isIdentity_iff.mpr identity)]
  · by_cases fits : psi.block ∣ x.shape.height ∧ psi.block ∣ x.shape.width
    · exact .inl ⟨.inr fits, forward_eq_gather full ⟨by omega, fits⟩⟩
    · exact .inr ⟨not_or.mpr ⟨identity, fits⟩, forward_refuses (by omega) fits⟩

/-- The inverse rearrangement of a full tensor, for a block whose area a word holds. -/
theorem inverse_cases (full : x.shape.IsFull) (area_lt : psi.block * psi.block < Count.limit) :
    ((psi.block ≤ 1 ∨ psi.block * psi.block ∣ x.shape.channels) ∧
        psi.inverse x = .ok (psi.scatter x)) ∨
      (¬ (psi.block ≤ 1 ∨ psi.block * psi.block ∣ x.shape.channels) ∧
        psi.inverse x = .error (.shape (.psiInverseMisfit (psi.block * psi.block) x.shape))) := by
  by_cases identity : psi.block ≤ 1
  · refine .inl ⟨.inl identity, ?_⟩
    rw [inverse_of_identity identity, scatter, if_pos (isIdentity_iff.mpr identity)]
  · by_cases fits : psi.block * psi.block ∣ x.shape.channels
    · exact .inl ⟨.inr fits, inverse_eq_scatter full area_lt fits⟩
    · exact .inr ⟨not_or.mpr ⟨identity, fits⟩, inverse_refuses (by omega) area_lt fits⟩

/-! ## Domains -/

theorem exists_forward_iff (full : x.shape.IsFull) :
    (∃ y, psi.forward x = .ok y) ↔
      psi.block ≤ 1 ∨ psi.block ∣ x.shape.height ∧ psi.block ∣ x.shape.width := by
  rcases forward_cases psi full with ⟨fits, ran⟩ | ⟨misfit, refused⟩
  · exact iff_of_true ⟨_, ran⟩ fits
  · refine iff_of_false ?_ misfit
    rintro ⟨y, ran⟩
    rw [refused] at ran
    cases ran

theorem fault_of_forward (full : x.shape.IsFull) {fault : Fault}
    (refused : psi.forward x = .error fault) :
    fault = .shape (.psiMisfit psi.block x.shape) := by
  rcases forward_cases psi full with ⟨-, ran⟩ | ⟨-, misfit⟩
  · rw [ran] at refused
    cases refused
  · rw [misfit] at refused
    cases refused
    rfl

/-- Where the way there moves anything, the extents behind it fit a word. -/
theorem counts_of_forward {y : Tensor α} (full : x.shape.IsFull)
    (counted : x.shape.size < Count.limit) (moves : 2 ≤ psi.block)
    (ran : psi.forward x = .ok y) :
    psi.block * psi.block < Count.limit ∧
      psi.block * psi.block * x.shape.channels < Count.limit := by
  have fits := ((exists_forward_iff full).mp ⟨y, ran⟩).resolve_left (by omega)
  have channels_le := area_mul_channels_le_size full ⟨by omega, fits⟩
  have area_le := Nat.le_mul_of_pos_right (psi.block * psi.block) full.2.1
  omega

/-- A way back that comes to an end has found a word for the area of the block. -/
theorem area_lt_of_inverse {y : Tensor α} (ran : psi.inverse x = .ok y) :
    psi.block * psi.block < Count.limit := by
  by_contra wide
  rw [inverse_overflows (Nat.not_lt.mp wide)] at ran
  cases ran

theorem exists_inverse_iff (full : x.shape.IsFull) (counted : x.shape.size < Count.limit) :
    (∃ y, psi.inverse x = .ok y) ↔ psi.block ≤ 1 ∨ psi.block * psi.block ∣ x.shape.channels := by
  apply Iff.intro
  · rintro ⟨y, ran⟩
    rcases inverse_cases full (area_lt_of_inverse ran) with ⟨fits, -⟩ | ⟨-, refused⟩
    · exact fits
    · rw [refused] at ran
      cases ran
  · intro fits
    have area_lt : psi.block * psi.block < Count.limit := by
      rcases fits with identity | fits
      · exact (Nat.mul_le_mul identity identity).trans_lt (by decide)
      · exact area_lt_of_dvd full counted fits
    rcases inverse_cases full area_lt with ⟨-, ran⟩ | ⟨misfit, -⟩
    · exact ⟨_, ran⟩
    · exact absurd fits misfit

theorem fault_of_inverse (full : x.shape.IsFull) {fault : Fault}
    (refused : psi.inverse x = .error fault) :
    (psi.block * psi.block < Count.limit ∧
        fault = .shape (.psiInverseMisfit (psi.block * psi.block) x.shape)) ∨
      (Count.limit ≤ psi.block * psi.block ∧ fault = .breakdown .overflow) := by
  rcases Nat.lt_or_ge (psi.block * psi.block) Count.limit with area_lt | wide
  · rcases inverse_cases full area_lt with ⟨-, ran⟩ | ⟨-, misfit⟩
    · rw [ran] at refused
      cases refused
    · rw [misfit] at refused
      cases refused
      exact .inl ⟨area_lt, rfl⟩
  · rw [inverse_overflows wide] at refused
    cases refused
    exact .inr ⟨wide, rfl⟩

/-- Where the way back moves anything, the extents in front of it fit a word. -/
theorem counts_of_inverse {y : Tensor α} (full : x.shape.IsFull)
    (counted : x.shape.size < Count.limit) (moves : 2 ≤ psi.block)
    (ran : psi.inverse x = .ok y) :
    psi.block * psi.block < Count.limit ∧
      x.shape.height * psi.block < Count.limit ∧ x.shape.width * psi.block < Count.limit := by
  have fits := ((exists_inverse_iff full counted).mp ⟨y, ran⟩).resolve_left (by omega)
  obtain ⟨rows_le, columns_le⟩ := extent_mul_block_le_size full fits
  exact ⟨area_lt_of_inverse ran, by omega, by omega⟩

/-- Both rearrangements of a full tensor are decided by one divisibility. The way there
refuses every other tensor with its shape. So does the way back, unless the area of the
block has no word: then it breaks off. No other count that either way comes by is without
a word. -/
theorem decided_by_divisibility (psi : Psi) (x : Tensor α) (full : x.shape.IsFull)
    (counted : x.shape.size < Count.limit) :
    (((∃ y, psi.forward x = .ok y) ↔
          psi.block ≤ 1 ∨ psi.block ∣ x.shape.height ∧ psi.block ∣ x.shape.width) ∧
        (∀ fault, psi.forward x = .error fault →
          fault = .shape (.psiMisfit psi.block x.shape)) ∧
        (∀ y, 2 ≤ psi.block → psi.forward x = .ok y →
          psi.block * psi.block < Count.limit ∧
            psi.block * psi.block * x.shape.channels < Count.limit)) ∧
      ((∃ y, psi.inverse x = .ok y) ↔
          psi.block ≤ 1 ∨ psi.block * psi.block ∣ x.shape.channels) ∧
        (∀ fault, psi.inverse x = .error fault →
          (psi.block * psi.block < Count.limit ∧
              fault = .shape (.psiInverseMisfit (psi.block * psi.block) x.shape)) ∨
            (Count.limit ≤ psi.block * psi.block ∧ fault = .breakdown .overflow)) ∧
        (∀ y, 2 ≤ psi.block → psi.inverse x = .ok y →
          psi.block * psi.block < Count.limit ∧
            x.shape.height * psi.block < Count.limit ∧
              x.shape.width * psi.block < Count.limit) := by
  refine ⟨⟨exists_forward_iff full, ?_, ?_⟩, exists_inverse_iff full counted, ?_, ?_⟩
  · intro fault refused
    exact fault_of_forward full refused
  · intro y moves ran
    exact counts_of_forward full counted moves ran
  · intro fault refused
    exact fault_of_inverse full refused
  · intro y moves ran
    exact counts_of_inverse full counted moves ran

/-- One image of four rows and two columns with one channel. -/
def tallImage : Tensor Int := .ofFn ⟨1, 1, 4, 2⟩ fun _ _ row column => 2 * row + column

/-- A block of two goes there and has nothing to go back from, which is refused. -/
theorem decided_by_divisibility_tall :
    (∃ y, (Psi.mk 2).forward tallImage = .ok y) ∧
      (Psi.mk 2).inverse tallImage = .error (.shape (.psiInverseMisfit 4 ⟨1, 1, 4, 2⟩)) := by
  have full : tallImage.shape.IsFull := by decide
  obtain ⟨⟨there, -, -⟩, back, fault, -⟩ :=
    decided_by_divisibility (.mk 2) tallImage full (by decide)
  refine ⟨there.mpr (.inr (by decide)), ?_⟩
  cases ran : (Psi.mk 2).inverse tallImage with
  | ok y => exact absurd (back.mp ⟨y, ran⟩) (by decide)
  | error cause =>
      obtain ⟨-, rfl⟩ := (fault cause ran).resolve_right fun wide => absurd wide.1 (by decide)
      rfl

/-- A block whose area is the first number that no word holds does not divide anything
there, and is not refused for it: the way back breaks off. -/
theorem inverse_breaks_off_tall :
    tallImage.shape.IsFull ∧ ¬ 0x100000000 * 0x100000000 ∣ tallImage.shape.channels ∧
      (Psi.mk 0x100000000).inverse tallImage = .error (.breakdown .overflow) ∧
      ∀ cause, (Psi.mk 0x100000000).inverse tallImage ≠ .error (.shape cause) := by
  have broken : (Psi.mk 0x100000000).inverse tallImage = .error (.breakdown .overflow) := rfl
  refine ⟨by decide, by decide, broken, ?_⟩
  intro cause refused
  rw [broken] at refused
  cases refused

end InvertibleNet.Psi
