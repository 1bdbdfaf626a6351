/-
# Random batches begin alike

A word of a stream depends on the seed and its place and not on how many words are
asked for, and the place of an entry in row-major order does not depend on how many
samples follow. So of two batches of one seed the shorter one is the front of the
longer one. A full batch can be drawn exactly if its bytes can be counted.
-/

import InvertibleNet.Proofs.Tensor.Room
import InvertibleNet.Proofs.Tensor.Selection
import InvertibleNet.Random.Batch

namespace InvertibleNet

namespace Keystream

/-- The word at a place of the stream of a seed. -/
def word (seed : UInt64) (place : Nat) : UInt32 :=
  (block (StreamKey.ofSeed seed) (place / 16).toUInt64).getD (place % 16) 0

theorem getD_words (seed : UInt64) {count place : Nat} (bound : place < count) :
    (words seed count).getD place 0 = word seed place := by
  have blocks : place / 16 < (count + 15) / 16 := by omega
  simp [words, word, Array.getD_eq_getD_getElem?, bound, blocks]

end Keystream

namespace Shape

variable {shape : Shape}

theorem IsFull.extent_ne_zero (full : shape.IsFull) : ∀ extent ∈ shape.toList, extent ≠ 0 := by
  obtain ⟨batch_pos, channels_pos, height_pos, width_pos⟩ := full
  simp [toList, Nat.ne_of_gt batch_pos, Nat.ne_of_gt channels_pos, Nat.ne_of_gt height_pos,
    Nat.ne_of_gt width_pos]

end Shape

namespace Tensor

/-- The batch of a seed. -/
def drawn (shape : Shape) (seed : UInt64) : Tensor Single where
  shape := shape
  values := Array.ofFn (n := shape.size) fun place => uniformValue (Keystream.word seed place)
  size_eq := by simp

theorem entry_drawn {shape : Shape} (seed : UInt64) {sample channel row column : Nat}
    (inside : shape.Contains sample channel row column) :
    (drawn shape seed).entry sample channel row column =
      uniformValue (Keystream.word seed (shape.offset sample channel row column)) := by
  have contains : (drawn shape seed).shape.Contains sample channel row column := inside
  have bound := Shape.offset_lt_size inside
  rw [entry, if_pos contains]
  simp [drawn, Array.getD_eq_getD_getElem?, bound]

/-- The samples in front of a batch are those of the shorter batch. -/
theorem select_first_drawn (front behind channels height width : Nat) (seed : UInt64) :
    (drawn ⟨front + behind, channels, height, width⟩ seed).select (.first front behind) =
      drawn ⟨front, channels, height, width⟩ seed := by
  refine eq_of_entries rfl ?_
  intro sample channel row column inside
  have bound : sample < front := inside.1
  have contains : (Shape.mk (front + behind) channels height width).Contains sample channel row
      column := ⟨Nat.lt_add_right behind bound, inside.2⟩
  rw [entry_select _ _ bound]
  exact (entry_drawn seed contains).trans (entry_drawn seed inside).symm

end Tensor

/-- A full batch is drawn where its bytes can be counted, and breaks off elsewhere. -/
theorem randomBatch_eq {shape : Shape} (full : shape.IsFull) (seed : UInt64) :
    randomBatch shape seed =
      if 4 * shape.size < Count.signedLimit then .ok (.drawn shape seed)
      else .error (.breakdown .overflow) := by
  have seen : RowMajor.reshaped? [shape.size] shape.toList = some shape.toList := by
    have sizes : RowMajor.size shape.toList = RowMajor.size [shape.size] := by
      simp [RowMajor.size, Shape.toList, Shape.size, Nat.mul_assoc]
    simp [RowMajor.reshaped?, RowMajor.resolveExtents?_of_ne_zero _ full.extent_ne_zero, sizes]
  have values : (Array.ofFn (n := shape.size) fun place =>
      uniformValue ((Keystream.words seed shape.size).getD place 0)) =
        Array.ofFn (n := shape.size) fun place => uniformValue (Keystream.word seed place) := by
    congr 1
    funext place
    rw [Keystream.getD_words seed place.isLt]
  unfold randomBatch
  split
  · next none =>
    rw [Bool.not_eq_true', ← Bool.not_eq_true, full.isAddressable_iff] at none
    rw [if_neg none]
  · next some =>
    rw [Bool.not_eq_true', Bool.not_eq_false, full.isAddressable_iff] at some
    rw [if_pos some, seen]
    exact congrArg Except.ok (Tensor.eq_of_values rfl values)

/-- Of two batches of one seed the shorter one is the front of the longer one. -/
theorem randomBatch_select_first {front behind channels height width : Nat} (some : 0 < front)
    (sample : 0 < channels ∧ 0 < height ∧ 0 < width) {seed : UInt64} {wide : Tensor Single}
    (draws : randomBatch ⟨front + behind, channels, height, width⟩ seed = .ok wide) :
    randomBatch ⟨front, channels, height, width⟩ seed =
      .ok (wide.select (.first front behind)) := by
  have more : (Shape.mk (front + behind) channels height width).IsFull :=
    ⟨Nat.lt_add_right behind some, sample⟩
  have fewer : (Shape.mk front channels height width).IsFull := ⟨some, sample⟩
  rw [randomBatch_eq more] at draws
  split at draws
  · next room =>
    cases draws
    have size_le : (Shape.mk front channels height width).size ≤
        (Shape.mk (front + behind) channels height width).size :=
      Nat.mul_le_mul_right _ (Nat.mul_le_mul_right _ (Nat.mul_le_mul_right _
        (Nat.le_add_right front behind)))
    rw [randomBatch_eq fewer, if_pos (by omega), Tensor.select_first_drawn]
  · cases draws

end InvertibleNet
