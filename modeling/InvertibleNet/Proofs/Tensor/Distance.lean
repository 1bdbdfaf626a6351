/-
# Distances of tensors

The distance of two tensors is the largest magnitude among the differences of their
entries, found by a run over the values that starts at the first one. A number is
only ever replaced by a larger number, so the run ends at the largest, wherever that
stands; only a not-a-number in front stays to the end. So a distance depends on the
first entry and on which entries there are. Taking the tensors in the other order
does not change it, nor does rearranging both, and fewer samples do not increase it.
-/

import InvertibleNet.Proofs.Binary.Magnitude
import InvertibleNet.Proofs.Tensor.Selection
import InvertibleNet.Tensor.Distance

namespace InvertibleNet

/-! ## The largest of a list of magnitudes -/

namespace Single

variable {first : Single} {values others : List Single}

theorem larger_eq_or (x y : Single) : x.larger y = x ∨ x.larger y = y := by
  unfold larger
  split
  · exact .inr rfl
  · exact .inl rfl

/-- The larger of two magnitudes is one again, and no smaller than the first. -/
theorem IsMagnitude.le_larger {x y : Single} (magnitude : x.IsMagnitude) :
    x.bits.toNat ≤ (x.larger y).bits.toNat := by
  unfold larger
  split
  · next less => exact Nat.le_of_lt (magnitude.less_iff.mp less).2.1
  · exact Nat.le_refl _

theorem IsMagnitude.isNaN_larger {x y : Single} (magnitude : x.IsMagnitude)
    (nan : x.isNaN = false) : (x.larger y).isNaN = false := by
  unfold larger
  split
  · next less => exact (magnitude.less_iff.mp less).2.2
  · exact nan

/-- Nothing takes the place of a not-a-number. -/
theorem IsMagnitude.larger_of_isNaN {x y : Single} (magnitude : x.IsMagnitude)
    (nan : x.isNaN = true) : x.larger y = x := by
  refine if_neg fun less => ?_
  obtain ⟨other, above, number⟩ := magnitude.less_iff.mp less
  have behind := magnitude.isNaN_iff.mp nan
  have last : y.isNaN = true := other.isNaN_iff.mpr (Nat.lt_trans behind above)
  rw [last] at number
  cases number

/-- A number is no larger than the larger of itself and a number. -/
theorem IsMagnitude.le_larger_right {x y : Single} (magnitude : x.IsMagnitude)
    (other : y.IsMagnitude) (number : y.isNaN = false) :
    y.bits.toNat ≤ (x.larger y).bits.toNat := by
  unfold larger
  split
  · exact Nat.le_refl _
  · next less =>
    refine Nat.le_of_not_lt fun above => less ?_
    exact magnitude.less_iff.mpr ⟨other, above, number⟩

theorem IsMagnitude.larger {x y : Single} (magnitude : x.IsMagnitude) (other : y.IsMagnitude) :
    (x.larger y).IsMagnitude := by
  rcases larger_eq_or x y with same | same
  · rw [same]
    exact magnitude
  · rw [same]
    exact other

/-- The run over the values. -/
def largest (first : Single) (values : List Single) : Single := values.foldl .larger first

theorem largest_mem (first : Single) (values : List Single) :
    largest first values ∈ first :: values := by
  induction values generalizing first with
  | nil => exact List.mem_singleton_self first
  | cons value values ih =>
      rcases List.mem_cons.mp (ih (first.larger value)) with same | member
      · rcases larger_eq_or first value with kept | kept
        · exact List.mem_cons.mpr (.inl (same.trans kept))
        · exact List.mem_cons_of_mem _ (List.mem_cons.mpr (.inl (same.trans kept)))
      · exact List.mem_cons_of_mem _ (List.mem_cons_of_mem _ member)

theorem largest_mem_of_mem (member : first ∈ values) : largest first values ∈ values := by
  rcases List.mem_cons.mp (largest_mem first values) with same | found
  · rw [same]
    exact member
  · exact found

theorem largest_of_isNaN (magnitude : first.IsMagnitude) (nan : first.isNaN = true) :
    largest first values = first := by
  induction values with
  | nil => rfl
  | cons value values ih =>
      show largest (first.larger value) values = first
      rw [magnitude.larger_of_isNaN nan, ih]

/-- Where the run starts at a number it ends at one that is at least every number of
the list. -/
theorem le_largest (magnitude : first.IsMagnitude)
    (magnitudes : ∀ value ∈ values, value.IsMagnitude) (number : first.isNaN = false) :
    (largest first values).isNaN = false ∧
      first.bits.toNat ≤ (largest first values).bits.toNat ∧
        ∀ value ∈ values, value.isNaN = false →
          value.bits.toNat ≤ (largest first values).bits.toNat := by
  induction values generalizing first with
  | nil => exact ⟨number, Nat.le_refl _, fun _ member => absurd member List.not_mem_nil⟩
  | cons value values ih =>
      obtain ⟨here, rest⟩ := List.forall_mem_cons.mp magnitudes
      obtain ⟨ends, above, bound⟩ :=
        ih (magnitude.larger here) rest (magnitude.isNaN_larger number)
      refine ⟨ends, Nat.le_trans magnitude.le_larger above, List.forall_mem_cons.mpr ⟨?_, bound⟩⟩
      intro some
      exact Nat.le_trans (magnitude.le_larger_right here some) above

/-- More values have no smaller largest one. -/
theorem largest_mono (magnitude : first.IsMagnitude)
    (magnitudes : ∀ value ∈ others, value.IsMagnitude)
    (included : ∀ value ∈ values, value ∈ others) :
    (largest first values).bits.toNat ≤ (largest first others).bits.toNat := by
  have subset : ∀ value ∈ values, value.IsMagnitude := fun value member =>
    magnitudes value (included value member)
  cases nan : first.isNaN with
  | true => rw [largest_of_isNaN magnitude nan, largest_of_isNaN magnitude nan]
  | false =>
      obtain ⟨number, -, -⟩ := le_largest magnitude subset nan
      obtain ⟨-, above, bound⟩ := le_largest magnitude magnitudes nan
      rcases List.mem_cons.mp (largest_mem first values) with same | member
      · rw [same]
        exact above
      · exact bound _ (included _ member) number

end Single

namespace Tensor

open Single

/-! ## Values and entries -/

theorem mem_values_iff {α : Type} [Zero α] {x : Tensor α} {value : α} :
    value ∈ x.values.toList ↔ ∃ sample channel row column,
      x.shape.Contains sample channel row column ∧ x.entry sample channel row column = value := by
  rw [Array.mem_toList_iff, Array.mem_iff_getElem]
  apply Iff.intro
  · intro member
    obtain ⟨place, bound, here⟩ := member
    obtain ⟨sample, channel, row, column, inside, rfl⟩ := Shape.exists_offset (x.size_eq ▸ bound)
    refine ⟨sample, channel, row, column, inside, ?_⟩
    rw [entry, if_pos inside, ← here]
    exact Array.getD_eq_getD_getElem?.trans (by rw [Array.getElem?_eq_getElem bound]; rfl)
  · intro entries
    obtain ⟨sample, channel, row, column, inside, rfl⟩ := entries
    have bound := x.size_eq ▸ Shape.offset_lt_size inside
    refine ⟨_, bound, ?_⟩
    rw [entry, if_pos inside, Array.getD_eq_getD_getElem?, Array.getElem?_eq_getElem bound]
    rfl

variable {x y : Tensor Single} {batch : Nat}

/-- The differences of the entries, without their signs. -/
def gap (x y : Tensor Single) : Tensor Single := (x.combine (· - ·) y).map .abs

/-- The largest value of a tensor that has some. -/
def peak (x : Tensor Single) : Single := largest (x.entry 0 0 0 0) x.values.toList

/-- The distance of two tensors of one shape that is full. -/
def distance (x y : Tensor Single) : Single := (x.gap y).peak

theorem entry_gap (shapes : x.shape = y.shape) {sample channel row column : Nat}
    (inside : x.shape.Contains sample channel row column) :
    (x.gap y).entry sample channel row column =
      (x.entry sample channel row column - y.entry sample channel row column).abs := by
  have combined : (x.combine (· - ·) y).shape.Contains sample channel row column := inside
  rw [gap, entry_map combined, entry_combine shapes inside]

theorem isMagnitude_gap (shapes : x.shape = y.shape) :
    ∀ value ∈ (x.gap y).values.toList, value.IsMagnitude := by
  intro value member
  obtain ⟨sample, channel, row, column, inside, rfl⟩ := mem_values_iff.mp member
  rw [entry_gap shapes inside]
  exact isMagnitude_abs _

/-- The first value of a full tensor is its entry at the origin. -/
theorem entry_origin (full : x.shape.IsFull) : x.values[0]? = some (x.entry 0 0 0 0) := by
  have inside : x.shape.Contains 0 0 0 0 := full
  have place : x.shape.offset 0 0 0 0 = 0 := by simp [Shape.offset]
  have bound : 0 < x.values.size := x.size_eq ▸ place ▸ Shape.offset_lt_size inside
  rw [entry, if_pos inside, place, Array.getD_eq_getD_getElem?, Array.getElem?_eq_getElem bound]
  rfl

/-- The measured error is the distance. -/
theorem maxAbsError_eq_distance (shapes : x.shape = y.shape) (full : x.shape.IsFull) :
    x.maxAbsError y = .ok (x.distance y) := by
  have origin := entry_origin (show (x.gap y).shape.IsFull from full)
  have maximum : (x.gap y).maximum = .ok (x.gap y).peak := by
    rw [Tensor.maximum, origin, peak, largest, Array.foldl_toList]
  simp only [maxAbsError, difference, if_pos shapes, bind, Except.bind]
  exact maximum

/-- A distance is itself one of the magnitudes. -/
theorem isMagnitude_distance (shapes : x.shape = y.shape) (full : x.shape.IsFull) :
    (x.distance y).IsMagnitude := by
  have origin : (x.gap y).entry 0 0 0 0 ∈ (x.gap y).values.toList :=
    mem_values_iff.mpr ⟨0, 0, 0, 0, full, rfl⟩
  exact isMagnitude_gap shapes _ (largest_mem_of_mem origin)

/-! ## What a distance depends on -/

/-- Where the differences start alike and all occur among others, the distance is no
larger. -/
theorem distance_noLarger {a b : Tensor Single} (shapes : x.shape = y.shape)
    (others : a.shape = b.shape) (some : x.shape.IsFull) (full : a.shape.IsFull)
    (origin : (x.gap y).entry 0 0 0 0 = (a.gap b).entry 0 0 0 0)
    (included : ∀ sample channel row column, x.shape.Contains sample channel row column →
      ∃ otherSample otherChannel otherRow otherColumn,
        a.shape.Contains otherSample otherChannel otherRow otherColumn ∧
          (a.gap b).entry otherSample otherChannel otherRow otherColumn =
            (x.gap y).entry sample channel row column) :
    (x.distance y).NoLarger (a.distance b) := by
  refine ⟨isMagnitude_distance shapes some, isMagnitude_distance others full, ?_⟩
  rw [distance, distance, peak, peak, origin]
  refine largest_mono ?_ (isMagnitude_gap others) ?_
  · exact isMagnitude_gap others _ (mem_values_iff.mpr ⟨0, 0, 0, 0, full, rfl⟩)
  · intro value member
    obtain ⟨sample, channel, row, column, inside, rfl⟩ := mem_values_iff.mp member
    obtain ⟨_, _, _, _, found, same⟩ := included sample channel row column inside
    exact mem_values_iff.mpr ⟨_, _, _, _, found, same⟩

/-- A distance is that of the other order. -/
theorem distance_comm (shapes : x.shape = y.shape) : x.distance y = y.distance x := by
  have same : x.gap y = y.gap x := by
    refine eq_of_entries shapes ?_
    intro sample channel row column inside
    rw [entry_gap shapes inside, entry_gap shapes.symm (shapes ▸ inside), abs_sub_comm]
  rw [distance, distance, same]

/-- The samples in front are no further apart than all samples. -/
theorem distance_select_first {front behind : Nat} (shapes : x.shape = y.shape)
    (full : x.shape.IsFull) (some : 0 < front) (samples : x.shape.batch = front + behind) :
    ((x.select (.first front behind)).distance (y.select (.first front behind))).NoLarger
      (x.distance y) := by
  have selected : (x.select (.first front behind)).shape =
      (y.select (.first front behind)).shape := by
    rw [shape_select, shape_select, shapes]
  have entry {sample channel row column : Nat}
      (inside : (x.select (.first front behind)).shape.Contains sample channel row column) :
      x.shape.Contains sample channel row column ∧
        (x.gap y).entry sample channel row column =
          ((x.select (.first front behind)).gap (y.select (.first front behind))).entry sample
            channel row column := by
    have bound : sample < front := inside.1
    have contains : x.shape.Contains sample channel row column :=
      ⟨samples ▸ Nat.lt_add_right behind bound, inside.2⟩
    refine ⟨contains, ?_⟩
    rw [entry_gap shapes contains, entry_gap selected inside, entry_select _ _ bound,
      entry_select _ _ bound]
    rfl
  refine distance_noLarger selected shapes ⟨some, full.2⟩ full (entry ⟨some, full.2⟩).2.symm ?_
  intro sample channel row column inside
  exact ⟨sample, channel, row, column, entry inside⟩

end Tensor

namespace Psi

variable {psi : Psi} {x y : Tensor Single}

/-- Rearranging both tensors does not change their distance. -/
theorem distance_gather (shapes : x.shape = y.shape) (full : x.shape.IsFull)
    (divides : psi.Divides x.shape) : (psi.gather x).distance (psi.gather y) = x.distance y := by
  have moved : (psi.gather x).shape = psi.gathered x.shape := shape_gather divides.1 x
  have others : (psi.gather x).shape = (psi.gather y).shape := by
    rw [moved, shape_gather divides.1, shapes]
  have forth {sample channel row column : Nat}
      (inside : (psi.gather x).shape.Contains sample channel row column) :
      ∃ kept up across, x.shape.Contains sample kept up across ∧
        (x.gap y).entry sample kept up across =
          ((psi.gather x).gap (psi.gather y)).entry sample channel row column := by
    obtain ⟨kept, up, across, found, same⟩ :=
      entry_gather (α := Single) divides (moved ▸ inside)
    refine ⟨kept, up, across, found, ?_⟩
    rw [Tensor.entry_gap shapes found, Tensor.entry_gap others inside, same x rfl,
      same y shapes.symm]
  have back {sample kept up across : Nat} (inside : x.shape.Contains sample kept up across) :
      ∃ channel row column, (psi.gather x).shape.Contains sample channel row column ∧
        ((psi.gather x).gap (psi.gather y)).entry sample channel row column =
          (x.gap y).entry sample kept up across := by
    obtain ⟨channel, row, column, found, same⟩ :=
      exists_entry_gather (α := Single) divides inside
    rw [← moved] at found
    refine ⟨channel, row, column, found, ?_⟩
    rw [Tensor.entry_gap shapes inside, Tensor.entry_gap others found, same x rfl,
      same y shapes.symm]
  have moved_full : (psi.gather x).shape.IsFull := moved ▸ full_gathered full divides
  have origin : ((psi.gather x).gap (psi.gather y)).entry 0 0 0 0 = (x.gap y).entry 0 0 0 0 := by
    rw [Tensor.entry_gap others moved_full, Tensor.entry_gap shapes full,
      entry_gather_origin full divides, entry_gather_origin (shapes ▸ full) (shapes ▸ divides)]
  apply Single.NoLarger.antisymm
  · refine Tensor.distance_noLarger others shapes moved_full full origin ?_
    intro sample channel row column inside
    obtain ⟨kept, up, across, found⟩ := forth inside
    exact ⟨sample, kept, up, across, found⟩
  · refine Tensor.distance_noLarger shapes others full moved_full origin.symm ?_
    intro sample kept up across inside
    obtain ⟨channel, row, column, found⟩ := back inside
    exact ⟨sample, channel, row, column, found⟩

end Psi

end InvertibleNet
