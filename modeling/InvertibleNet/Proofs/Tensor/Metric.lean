/-
# The measured error as a distance

Between tensors of numbers no difference is a not-a-number, so the run that measures the error
ends at the largest of all gaps, and this property alone fixes it. Hence everything that a
distance should have: it is zero only between tensors whose entries are equal, it does not
depend on the order of the two or on how both are laid out, and two tensors that are joined
along their channels are as far from two others as the pair of parts that is further apart.
-/

import InvertibleNet.Proofs.Binary.Difference
import InvertibleNet.Proofs.Tensor.Distance
import InvertibleNet.Proofs.Tensor.Joining
import InvertibleNet.Proofs.Tensor.Permutation
import InvertibleNet.Proofs.Tensor.Refusal

namespace InvertibleNet

/-! ## The largest of some magnitudes -/

namespace Single

/-- Whether a number is the largest of some magnitudes. -/
structure IsLargest (values : List Single) (peak : Single) : Prop where
  attained : peak ∈ values
  bound : ∀ value ∈ values, value.NoLarger peak

namespace IsLargest

variable {values others : List Single} {peak other : Single}

theorem unique (first : IsLargest values peak) (second : IsLargest values other) :
    peak = other :=
  NoLarger.antisymm (second.bound peak first.attained) (first.bound other second.attained)

/-- A largest number that is zero leaves nothing but zero. -/
theorem eq_zero_iff (largest : IsLargest values peak) :
    peak = zero ↔ ∀ value ∈ values, value = zero := by
  apply Iff.intro
  · rintro rfl value member
    exact eq_of_toNat_bits (Nat.le_zero.mp (largest.bound value member).words)
  · intro none
    exact none peak largest.attained

/-- The largest of two collections is the larger of their largest. -/
theorem union {both : List Single} (first : IsLargest values peak)
    (second : IsLargest others other) (number : other.isNaN = false)
    (mem_iff : ∀ value, value ∈ both ↔ value ∈ values ∨ value ∈ others) :
    IsLargest both (peak.larger other) := by
  have here := (first.bound peak first.attained).first
  have there := (second.bound other second.attained).first
  have magnitude := here.larger there
  constructor
  · rw [mem_iff]
    rcases larger_eq_or peak other with same | same
    · rw [same]
      exact .inl first.attained
    · rw [same]
      exact .inr second.attained
  · intro value member
    rcases (mem_iff value).mp member with member | member
    · have below := first.bound value member
      exact ⟨below.first, magnitude, below.words.trans here.le_larger⟩
    · have below := second.bound value member
      exact ⟨below.first, magnitude, below.words.trans (here.le_larger_right there number)⟩

end IsLargest

/-- A run over magnitudes that are numbers, from one of them on, ends at the largest. -/
theorem isLargest_largest {first : Single} {values : List Single} (member : first ∈ values)
    (magnitudes : ∀ value ∈ values, value.IsMagnitude)
    (numbers : ∀ value ∈ values, value.isNaN = false) :
    IsLargest values (largest first values) := by
  have attained := largest_mem_of_mem member
  obtain ⟨-, -, bound⟩ := le_largest (magnitudes first member) magnitudes (numbers first member)
  exact ⟨attained, fun value found =>
    ⟨magnitudes value found, magnitudes _ attained, bound value found (numbers value found)⟩⟩

end Single

namespace Tensor

open Single

/-! ## Tensors of numbers -/

/-- Whether all values of a tensor are numbers. -/
def IsFinite (x : Tensor Single) : Prop := ∀ value ∈ x.values.toList, value.isFinite = true

instance (x : Tensor Single) : Decidable x.IsFinite := inferInstanceAs (Decidable (∀ _ ∈ _, _))

variable {x y a b : Tensor Single}

theorem IsFinite.entry (finite : x.IsFinite) {sample channel row column : Nat}
    (inside : x.shape.Contains sample channel row column) :
    (x.entry sample channel row column).isFinite = true :=
  finite _ (mem_values_iff.mpr ⟨sample, channel, row, column, inside, rfl⟩)

theorem isNaN_gap (shapes : x.shape = y.shape) (first : x.IsFinite) (second : y.IsFinite) :
    ∀ value ∈ (x.gap y).values.toList, value.isNaN = false := by
  intro value member
  obtain ⟨sample, channel, row, column, inside, rfl⟩ := mem_values_iff.mp member
  rw [entry_gap shapes inside]
  exact isNaN_abs_sub (first.entry inside) (second.entry (shapes ▸ inside))

/-- The distance of tensors of numbers is the largest of their gaps. -/
theorem isLargest_distance (shapes : x.shape = y.shape) (full : x.shape.IsFull)
    (first : x.IsFinite) (second : y.IsFinite) :
    IsLargest (x.gap y).values.toList (x.distance y) :=
  isLargest_largest (mem_values_iff.mpr ⟨0, 0, 0, 0, full, rfl⟩) (isMagnitude_gap shapes)
    (isNaN_gap shapes first second)

theorem isNaN_distance (shapes : x.shape = y.shape) (full : x.shape.IsFull)
    (first : x.IsFinite) (second : y.IsFinite) : (x.distance y).isNaN = false :=
  isNaN_gap shapes first second _ (isLargest_distance shapes full first second).attained

/-- A distance is zero exactly between tensors that arithmetic finds equal everywhere. -/
theorem distance_eq_zero_iff (shapes : x.shape = y.shape) (full : x.shape.IsFull)
    (first : x.IsFinite) (second : y.IsFinite) :
    x.distance y = .zero ↔ ∀ sample channel row column,
      x.shape.Contains sample channel row column →
        (x.entry sample channel row column).Agrees (y.entry sample channel row column) := by
  have gap_zero {sample channel row column : Nat}
      (inside : x.shape.Contains sample channel row column) :
      (x.gap y).entry sample channel row column = .zero ↔
        (x.entry sample channel row column).Agrees (y.entry sample channel row column) := by
    rw [entry_gap shapes inside]
    exact abs_sub_eq_zero_iff (first.entry inside) (second.entry (shapes ▸ inside))
  rw [(isLargest_distance shapes full first second).eq_zero_iff]
  apply Iff.intro
  · intro zeros sample channel row column inside
    exact (gap_zero inside).mp
      (zeros _ (mem_values_iff.mpr ⟨sample, channel, row, column, inside, rfl⟩))
  · intro agrees value member
    obtain ⟨sample, channel, row, column, inside, rfl⟩ := mem_values_iff.mp member
    exact (gap_zero inside).mpr (agrees sample channel row column inside)

/-! ## Joined tensors -/

/-- A place of joined tensors is one of the first, or of the second behind its channels. -/
theorem contains_append_iff {α : Type} {x a : Tensor α} [Zero α] (aligned : x.Aligned a)
    {sample channel row column : Nat} :
    (x.append a).shape.Contains sample channel row column ↔
      x.shape.Contains sample channel row column ∨ x.shape.channels ≤ channel ∧
        a.shape.Contains sample (channel - x.shape.channels) row column := by
  obtain ⟨batch, height, width⟩ := aligned
  simp only [shape_append, Shape.Contains, ← batch, ← height, ← width]
  omega

/-- The values of joined tensors are those of the two parts. -/
theorem mem_values_append_iff {α : Type} {x a : Tensor α} [Zero α] (aligned : x.Aligned a)
    {value : α} : value ∈ (x.append a).values.toList ↔
      value ∈ x.values.toList ∨ value ∈ a.values.toList := by
  simp only [mem_values_iff]
  apply Iff.intro
  · rintro ⟨sample, channel, row, column, inside, rfl⟩
    rw [entry_append aligned]
    rcases (contains_append_iff aligned).mp inside with front | ⟨past, behind⟩
    · rw [if_pos front.2.1]
      exact .inl ⟨_, _, _, _, front, rfl⟩
    · rw [if_neg past.not_gt]
      exact .inr ⟨_, _, _, _, behind, rfl⟩
  · rintro (⟨sample, channel, row, column, inside, rfl⟩ |
      ⟨sample, channel, row, column, inside, rfl⟩)
    · refine ⟨sample, channel, row, column, (contains_append_iff aligned).mpr (.inl inside), ?_⟩
      rw [entry_append aligned, if_pos inside.2.1]
    · have width : x.shape.channels + channel - x.shape.channels = channel :=
        Nat.add_sub_cancel_left ..
      refine ⟨sample, x.shape.channels + channel, row, column,
        (contains_append_iff aligned).mpr (.inr ⟨Nat.le_add_right .., width.symm ▸ inside⟩), ?_⟩
      rw [entry_append aligned, if_neg (Nat.le_add_right ..).not_gt, width]

theorem Aligned.congr (aligned : x.Aligned a) (shapes : x.shape = y.shape)
    (others : a.shape = b.shape) : y.Aligned b := by
  unfold Aligned at aligned ⊢
  rwa [← shapes, ← others]

theorem shape_append_congr (shapes : x.shape = y.shape) (others : a.shape = b.shape) :
    (x.append a).shape = (y.append b).shape := by
  rw [shape_append, shape_append, shapes, others]

/-- The gaps between joined tensors are the joined gaps. -/
theorem gap_append (shapes : x.shape = y.shape) (others : a.shape = b.shape)
    (aligned : x.Aligned a) : (x.append a).gap (y.append b) = (x.gap y).append (a.gap b) := by
  have gaps : (x.gap y).Aligned (a.gap b) := aligned
  have width : (x.gap y).shape.channels = x.shape.channels := rfl
  refine eq_of_entries rfl fun sample channel row column inside => ?_
  rw [entry_gap (shape_append_congr shapes others) inside, entry_append aligned,
    entry_append (aligned.congr shapes others), entry_append gaps, width, ← shapes]
  rcases (contains_append_iff aligned).mp inside with front | ⟨past, behind⟩
  · rw [if_pos front.2.1, if_pos front.2.1, if_pos front.2.1, entry_gap shapes front]
  · rw [if_neg past.not_gt, if_neg past.not_gt, if_neg past.not_gt, entry_gap others behind]

theorem full_append (full : x.shape.IsFull) (a : Tensor Single) : (x.append a).shape.IsFull :=
  ⟨full.1, Nat.add_pos_left full.2.1 _, full.2.2⟩

theorem IsFinite.append (first : x.IsFinite) (second : a.IsFinite) (aligned : x.Aligned a) :
    (x.append a).IsFinite := by
  intro value member
  exact ((mem_values_append_iff aligned).mp member).elim (first value) (second value)

/-- Joined tensors are as far apart as the parts that are further apart. -/
theorem distance_append (shapes : x.shape = y.shape) (others : a.shape = b.shape)
    (aligned : x.Aligned a) (full : x.shape.IsFull) (populated : a.shape.IsFull)
    (first : x.IsFinite) (second : y.IsFinite) (third : a.IsFinite) (fourth : b.IsFinite) :
    (x.append a).distance (y.append b) = (x.distance y).larger (a.distance b) := by
  have behind : y.Aligned b := aligned.congr shapes others
  have joined := shape_append_congr shapes others
  have whole := full_append full a
  have larger := (isLargest_distance shapes full first second).union
    (isLargest_distance others populated third fourth)
    (isNaN_distance others populated third fourth)
    fun value => mem_values_append_iff (show (x.gap y).Aligned (a.gap b) from aligned)
  rw [← gap_append shapes others aligned] at larger
  exact (isLargest_distance joined whole (first.append third aligned)
    (second.append fourth behind)).unique larger

end Tensor

namespace Psi

variable {psi : Psi} {x y moved : Tensor Single}

/-! ## Rearranged tensors -/

theorem gather_of_identity {α : Type} [Zero α] (identity : psi.block ≤ 1) (x : Tensor α) :
    psi.gather x = x :=
  if_pos (isIdentity_iff.mpr identity)

theorem scatter_of_identity {α : Type} [Zero α] (identity : psi.block ≤ 1) (x : Tensor α) :
    psi.scatter x = x :=
  if_pos (isIdentity_iff.mpr identity)

/-- The measured error of two tensors is that of what the way there makes of them. -/
theorem maxAbsError_gather (shapes : x.shape = y.shape) (full : x.shape.IsFull)
    (fits : psi.block ≤ 1 ∨ psi.block ∣ x.shape.height ∧ psi.block ∣ x.shape.width) :
    (psi.gather x).maxAbsError (psi.gather y) = .ok (x.distance y) := by
  by_cases identity : psi.block ≤ 1
  · rw [gather_of_identity identity, gather_of_identity identity,
      Tensor.maxAbsError_eq_distance shapes full]
  · have divides : psi.Divides x.shape := ⟨by omega, fits.resolve_left identity⟩
    have moved : (psi.gather x).shape = psi.gathered x.shape := shape_gather divides.1 x
    rw [Tensor.maxAbsError_eq_distance, distance_gather shapes full divides]
    · rw [moved, shape_gather divides.1, shapes]
    · exact moved ▸ full_gathered full divides

theorem full_spread {shape : Shape} (full : shape.IsFull) (block_pos : 0 < psi.block)
    (channels_dvd : psi.block * psi.block ∣ shape.channels) : (psi.spread shape).IsFull := by
  obtain ⟨batch_pos, channels_pos, height_pos, width_pos⟩ := full
  have channels_le := Nat.le_of_dvd channels_pos channels_dvd
  exact ⟨batch_pos, Nat.div_pos channels_le (Nat.mul_pos block_pos block_pos),
    Nat.mul_pos height_pos block_pos, Nat.mul_pos width_pos block_pos⟩

/-- The way back does not change the measured error either, since the way there leads from
its results to the tensors again. -/
theorem maxAbsError_scatter (shapes : x.shape = y.shape) (full : x.shape.IsFull)
    (fits : psi.block ≤ 1 ∨ psi.block * psi.block ∣ x.shape.channels) :
    (psi.scatter x).maxAbsError (psi.scatter y) = .ok (x.distance y) := by
  by_cases identity : psi.block ≤ 1
  · rw [scatter_of_identity identity, scatter_of_identity identity,
      Tensor.maxAbsError_eq_distance shapes full]
  · have block_pos : 0 < psi.block := by omega
    have channels_dvd := fits.resolve_left identity
    have spread : (psi.scatter x).shape = psi.spread x.shape := shape_scatter block_pos x
    have spreads : (psi.scatter x).shape = (psi.scatter y).shape := by
      rw [spread, shape_scatter block_pos, shapes]
    have populated : (psi.scatter x).shape.IsFull :=
      spread ▸ full_spread full block_pos channels_dvd
    -- Gathering what was scattered gives both tensors again.
    have back := distance_gather spreads populated (divides_scatter block_pos x)
    rw [gather_scatter block_pos channels_dvd, gather_scatter block_pos (shapes ▸ channels_dvd)]
      at back
    rw [Tensor.maxAbsError_eq_distance spreads populated, back]

theorem maxAbsError_forward (shapes : x.shape = y.shape) (full : x.shape.IsFull)
    (ran : psi.forward x = .ok moved) :
    ∃ other, psi.forward y = .ok other ∧ moved.maxAbsError other = .ok (x.distance y) := by
  have fits := (exists_forward_iff full).mp ⟨moved, ran⟩
  rcases forward_cases psi full with ⟨-, here⟩ | ⟨misfit, -⟩
  · rcases forward_cases psi (shapes ▸ full) with ⟨-, there⟩ | ⟨misfit, -⟩
    · cases here.symm.trans ran
      exact ⟨psi.gather y, there, maxAbsError_gather shapes full fits⟩
    · exact absurd (shapes ▸ fits) misfit
  · exact absurd fits misfit

theorem maxAbsError_inverse (shapes : x.shape = y.shape) (full : x.shape.IsFull)
    (ran : psi.inverse x = .ok moved) :
    ∃ other, psi.inverse y = .ok other ∧ moved.maxAbsError other = .ok (x.distance y) := by
  have area_lt := area_lt_of_inverse ran
  rcases inverse_cases full area_lt with ⟨fits, here⟩ | ⟨-, refused⟩
  · rcases inverse_cases (shapes ▸ full) area_lt with ⟨-, there⟩ | ⟨misfit, -⟩
    · cases here.symm.trans ran
      exact ⟨psi.scatter y, there, maxAbsError_scatter shapes full fits⟩
    · exact absurd (shapes ▸ fits) misfit
  · rw [refused] at ran
    cases ran

end Psi

namespace Tensor

variable {x y : Tensor Single}

/-- Between tensors of numbers of one shape with values the measured error is a distance. It
is not negative, it does not depend on the order of the two, and it is zero exactly if
arithmetic finds every two entries at one place equal. It stays the same if both are rearranged
in either direction, and where both are merged with two more such tensors it becomes the larger
of the two errors. -/
theorem maxAbsError_is_distance (shapes : x.shape = y.shape) (full : x.shape.IsFull)
    (first : x.IsFinite) (second : y.IsFinite) :
    ∃ error, x.maxAbsError y = .ok error ∧ Single.zero.atMost error = true ∧
      y.maxAbsError x = .ok error ∧
      (error = .zero ↔ ∀ sample channel row column,
        x.shape.Contains sample channel row column →
          (x.entry sample channel row column).Agrees (y.entry sample channel row column)) ∧
      (∀ (psi : Psi) (moved : Tensor Single), psi.forward x = .ok moved →
        ∃ other, psi.forward y = .ok other ∧ moved.maxAbsError other = .ok error) ∧
      (∀ (psi : Psi) (moved : Tensor Single), psi.inverse x = .ok moved →
        ∃ other, psi.inverse y = .ok other ∧ moved.maxAbsError other = .ok error) ∧
      ∀ a b : Tensor Single, a.shape = b.shape → a.shape.IsFull → a.IsFinite → b.IsFinite →
        ∀ merged, x.merge a = .ok merged → ∃ other further, y.merge b = .ok other ∧
          a.maxAbsError b = .ok further ∧
          merged.maxAbsError other = .ok (error.larger further) := by
  refine ⟨x.distance y, maxAbsError_eq_distance shapes full, ?_, ?_,
    distance_eq_zero_iff shapes full first second, ?_, ?_, ?_⟩
  · have magnitude := isMagnitude_distance shapes full
    have zero : Single.zero.IsMagnitude := Nat.two_pow_pos 31
    exact (zero.atMost_iff magnitude).mpr
      ⟨Nat.zero_le _, isNaN_distance shapes full first second⟩
  · rw [maxAbsError_eq_distance shapes.symm (shapes ▸ full), distance_comm shapes]
  · intro psi moved ran
    exact Psi.maxAbsError_forward shapes full ran
  · intro psi moved ran
    exact Psi.maxAbsError_inverse shapes full ran
  · intro a b others populated third fourth merged merges
    obtain ⟨⟨aligned, room⟩, rfl⟩ := merge_eq_ok_iff.mp merges
    have joined := shape_append_congr shapes others
    refine ⟨y.append b, a.distance b,
      merge_eq_ok_iff.mpr ⟨⟨aligned.congr shapes others, joined ▸ room⟩, rfl⟩,
      maxAbsError_eq_distance others populated, ?_⟩
    rw [maxAbsError_eq_distance joined (full_append full a),
      distance_append shapes others aligned full populated first second third fourth]

/-- Four channels of two rows and two columns with one number everywhere. -/
def evenImage (value : Single) : Tensor Single := .ofFn ⟨1, 4, 2, 2⟩ fun _ _ _ _ => value

theorem shape_evenImage (value : Single) : (evenImage value).shape = ⟨1, 4, 2, 2⟩ := rfl

theorem full_evenImage (value : Single) : (evenImage value).shape.IsFull := by
  rw [shape_evenImage]
  decide

theorem entry_evenImage (value : Single) {sample channel row column : Nat}
    (inside : Shape.Contains ⟨1, 4, 2, 2⟩ sample channel row column) :
    (evenImage value).entry sample channel row column = value := by
  rw [evenImage, entry_ofFn, if_pos inside]

theorem isFinite_evenImage {value : Single} (number : value.isFinite = true) :
    (evenImage value).IsFinite := by
  intro _ member
  obtain ⟨sample, channel, row, column, inside, rfl⟩ := mem_values_iff.mp member
  rwa [entry_evenImage value inside]

/-- Two zeros of opposite sign are different words at distance zero, rearranged or not, and at
the distance of others once they are merged with these. -/
theorem maxAbsError_is_distance_signs :
    let x := evenImage ⟨0⟩
    let y := evenImage ⟨0x80000000⟩
    x.entry 0 0 0 0 ≠ y.entry 0 0 0 0 ∧ x.maxAbsError y = .ok .zero ∧
      (∃ moved other, (Psi.mk 2).forward x = .ok moved ∧ (Psi.mk 2).forward y = .ok other ∧
        moved.maxAbsError other = .ok .zero) ∧
      (∃ moved other, (Psi.mk 2).inverse x = .ok moved ∧ (Psi.mk 2).inverse y = .ok other ∧
        moved.maxAbsError other = .ok .zero) ∧
      ∃ merged other further, x.merge (evenImage .one) = .ok merged ∧
        y.merge (evenImage ⟨0x40000000⟩) = .ok other ∧
        (evenImage .one).maxAbsError (evenImage ⟨0x40000000⟩) = .ok further ∧
        merged.maxAbsError other = .ok (Single.zero.larger further) := by
  intro x y
  have shapes : x.shape = y.shape := (shape_evenImage _).trans (shape_evenImage _).symm
  obtain ⟨error, measured, -, -, zero_iff, forward, inverse, merge⟩ :=
    maxAbsError_is_distance shapes (full_evenImage _) (isFinite_evenImage (by decide))
      (isFinite_evenImage (by decide))
  have none : error = .zero := by
    refine zero_iff.mpr fun sample channel row column inside => ?_
    rw [entry_evenImage _ inside, entry_evenImage _ inside]
    decide
  subst none
  have there : (Psi.mk 2).forward x = .ok _ :=
    Psi.forward_eq_gather (full_evenImage _) ⟨by decide, by decide, by decide⟩
  have back : (Psi.mk 2).inverse x = .ok _ :=
    Psi.inverse_eq_scatter (full_evenImage _) (by decide) (by decide)
  obtain ⟨forwards, moves, same⟩ := forward (.mk 2) _ there
  obtain ⟨backwards, returns, unchanged⟩ := inverse (.mk 2) _ back
  have merges : x.merge (evenImage .one) = .ok _ :=
    merge_eq_ok_iff.mpr ⟨⟨⟨rfl, rfl, rfl⟩, by rw [shape_append, shape_evenImage]; decide⟩, rfl⟩
  obtain ⟨other, further, joins, apart, larger⟩ := merge (evenImage .one) (evenImage ⟨0x40000000⟩)
    ((shape_evenImage _).trans (shape_evenImage _).symm) (full_evenImage _)
    (isFinite_evenImage (by decide)) (isFinite_evenImage (by decide)) _ merges
  refine ⟨?_, measured, ⟨_, forwards, there, moves, same⟩, ⟨_, backwards, back, returns, unchanged⟩,
    _, other, further, merges, joins, apart, larger⟩
  rw [entry_evenImage _ (by decide), entry_evenImage _ (by decide)]
  decide

end Tensor

end InvertibleNet
