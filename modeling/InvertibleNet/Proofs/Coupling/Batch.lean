/-
# Runs keep the batch

A step forward may refuse a tensor, but what it gives has as many samples as what
it took. This holds of every tensor, also of one without values, whose other
extents may come out of a rearrangement changed.
-/

import InvertibleNet.Coupling.Branch
import InvertibleNet.Proofs.Outcome
import InvertibleNet.Proofs.Tensor.Vacancy

namespace InvertibleNet

universe u

open Outcome

variable {α : Type u} [Zero α]

/-! ## Pairs -/

/-- Whether both halves have the given number of samples. -/
def Pair.HasBatch (pair : Pair α) (batch : Nat) : Prop :=
  pair.1.shape.batch = batch ∧ pair.2.shape.batch = batch

theorem Tensor.batch_splitAt {x : Tensor α} {point : Nat} {halves : Pair α}
    (cuts : x.splitAt point = .ok halves) : halves.HasBatch x.shape.batch := by
  unfold Tensor.splitAt at cuts
  split at cuts
  · cases cuts
  · cases cuts
    exact ⟨rfl, rfl⟩

theorem Tensor.batch_split {x : Tensor α} {halves : Pair α} (cuts : x.split = .ok halves) :
    halves.HasBatch x.shape.batch := by
  unfold Tensor.split at cuts
  split at cuts
  · cases cuts
  · exact Tensor.batch_splitAt cuts

theorem Pair.batch_merge {pair : Pair α} {merged : Tensor α} {batch : Nat}
    (halves : pair.HasBatch batch) (joins : pair.merge = .ok merged) :
    merged.shape.batch = batch := by
  unfold Pair.merge Tensor.mergeChannels at joins
  split at joins
  · cases joins
    exact halves.1
  · cases joins

/-! ## Steps and runs -/

namespace Coupling

variable {block : Coupling α} {pair next : Pair α} {batch : Nat}

theorem batch_grow (halves : pair.HasBatch batch) (grows : block.grow pair = .ok next) :
    next.HasBatch batch := by
  unfold grow at grows
  split at grows
  · obtain ⟨merged, joins, cuts⟩ := bind_eq_ok_iff.mp grows
    have both := Tensor.batch_split cuts
    rw [Tensor.shape_padChannels] at both
    rwa [Pair.batch_merge halves joins] at both
  · cases grows
    exact halves

theorem batch_couple [Add α] (halves : pair.HasBatch batch)
    (couples : block.couple pair = .ok next) : next.HasBatch batch := by
  unfold couple at couples
  split at couples
  · cases couples
  · obtain ⟨firstMoved, first_moves, rest⟩ := bind_eq_ok_iff.mp couples
    obtain ⟨secondMoved, second_moves, rest⟩ := bind_eq_ok_iff.mp rest
    obtain ⟨update, -, rest⟩ := bind_eq_ok_iff.mp rest
    split at rest
    · cases rest
    · next same =>
      cases rest
      have shapes := Decidable.not_not.mp same
      have first := (Psi.batch_forward first_moves).trans halves.1
      have second := (Psi.batch_forward second_moves).trans halves.2
      exact ⟨second, by rw [Tensor.shape_add, shapes, first]⟩

theorem batch_forward [Add α] (halves : pair.HasBatch batch)
    (steps : block.forward pair = .ok next) : next.HasBatch batch := by
  unfold forward at steps
  split at steps
  · cases steps
  · obtain ⟨grown, grows, couples⟩ := bind_eq_ok_iff.mp steps
    exact batch_couple (batch_grow halves grows) couples

end Coupling

namespace Branch

/-- A run forward keeps the batch. -/
theorem batch_runForward [Add α] {blocks : List (Coupling α)} {pair last : Pair α} {batch : Nat}
    (halves : pair.HasBatch batch) (runs : runForward blocks pair = .ok last) :
    last.HasBatch batch := by
  induction blocks generalizing pair with
  | nil =>
      cases runs
      exact halves
  | cons block blocks ih =>
      obtain ⟨next, steps, rest⟩ := bind_eq_ok_iff.mp runs
      exact ih (Coupling.batch_forward halves steps) rest

/-- The features have as many samples as the input. -/
theorem batch_forward [Add α] {branch : Branch α} {x y : Tensor α}
    (runs : branch.forward x = .ok y) : y.shape.batch = x.shape.batch := by
  obtain ⟨entered, enters, rest⟩ := bind_eq_ok_iff.mp runs
  obtain ⟨pair, cuts, rest⟩ := bind_eq_ok_iff.mp rest
  obtain ⟨last, runs, joins⟩ := bind_eq_ok_iff.mp rest
  have halves := Tensor.batch_splitAt cuts
  rw [Pair.batch_merge (batch_runForward halves runs) joins]
  unfold enter at enters
  split at enters
  · exact Psi.batch_forward enters
  · cases enters

end Branch

end InvertibleNet
