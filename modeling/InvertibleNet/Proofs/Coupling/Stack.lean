/-
# Stacks of coupling blocks

Both walks through a stack, read as functions of the merged tensor. The walk back
visits the blocks from the last one on, so every statement is proved along the
list with the shape in front of the first block left free. Over a group a walk
there and back gives the start, and a walk back and there does exactly if no
block on the way back has dropped anything but zeros.
-/

import InvertibleNet.Coupling.Branch
import InvertibleNet.Proofs.Coupling.Step

namespace InvertibleNet

universe u

namespace Coupling

variable {α : Type u} [Zero α] [Add α] [Neg α]

/-- Whether the channels that a step back drops are zero. A block that does not
pad drops none. -/
def DropsZeros (block : Coupling α) (pair : Pair α) : Prop :=
  ∀ halves merged, block.uncouple pair = .ok halves → halves.merge = .ok merged →
    merged.VanishesFrom (merged.shape.channels - block.spec.pad)

theorem dropsZeros_cut_iff {block : Coupling α} {shape : Shape} (takes : block.spec.Takes shape)
    (shaped : block.IsShaped) {y : Tensor α} (output : y.shape = block.spec.output shape) :
    block.DropsZeros y.cut ↔ (block.uncoupled y).VanishesFrom block.spec.inChannels := by
  have uncoupled := uncouple_cut takes shaped output
  have kept : (block.uncoupled y).shape.channels - block.spec.pad = block.spec.inChannels := by
    rw [shape_uncoupled takes shaped output]
    exact Nat.add_sub_cancel ..
  apply Iff.intro
  · intro zeros
    have vanishes := zeros _ _ uncoupled (Tensor.merge_cut _)
    rwa [kept] at vanishes
  · intro vanishes halves merged halves_eq merged_eq
    rw [uncoupled] at halves_eq
    cases halves_eq
    rw [Tensor.merge_cut] at merged_eq
    cases merged_eq
    rwa [kept]

end Coupling

namespace Branch

variable {α : Type u}

/-- Blocks that a tensor of the given shape can be sent through. -/
structure Runs (blocks : List (Coupling α)) (shape : Shape) : Prop where
  passes : Schedule.Passes (blocks.map (·.spec)) shape
  shaped : ∀ block ∈ blocks, block.IsShaped

/-- The shape behind the blocks. -/
def output (blocks : List (Coupling α)) (shape : Shape) : Shape :=
  Schedule.output (blocks.map (·.spec)) shape

theorem Runs.tail {block : Coupling α} {blocks : List (Coupling α)} {shape : Shape}
    (runs : Runs (block :: blocks) shape) : Runs blocks (block.spec.output shape) :=
  ⟨runs.passes.2, fun other member => runs.shaped other (List.mem_cons_of_mem _ member)⟩

theorem Runs.head {block : Coupling α} {blocks : List (Coupling α)} {shape : Shape}
    (runs : Runs (block :: blocks) shape) : block.spec.Takes shape ∧ block.IsShaped :=
  ⟨runs.passes.1, runs.shaped block List.mem_cons_self⟩

section Walks

variable [Zero α] [Add α]

/-- All blocks forward on the merged tensor. -/
def advanceAll (blocks : List (Coupling α)) (x : Tensor α) : Tensor α :=
  blocks.foldl (fun state block => block.advance state) x

theorem shape_advanceAll {blocks : List (Coupling α)} {shape : Shape} (runs : Runs blocks shape)
    {x : Tensor α} (input : x.shape = shape) :
    (advanceAll blocks x).shape = output blocks shape := by
  induction blocks generalizing shape x with
  | nil => exact input
  | cons block blocks ih =>
      exact ih runs.tail (Coupling.shape_advance runs.head.1 runs.head.2 input)

/-- A run forward advances the merged tensor block by block. -/
theorem runForward_cut {blocks : List (Coupling α)} {shape : Shape} (runs : Runs blocks shape)
    {x : Tensor α} (input : x.shape = shape) :
    runForward blocks x.cut = .ok (advanceAll blocks x).cut := by
  induction blocks generalizing shape x with
  | nil => rfl
  | cons block blocks ih =>
      obtain ⟨takes, shaped⟩ := runs.head
      show (block.forward x.cut >>= fun pair => runForward blocks pair) = _
      rw [Coupling.forward_cut takes shaped input]
      exact ih runs.tail (Coupling.shape_advance takes shaped input)

variable [Neg α]

/-- All blocks back on the merged tensor, the last one first. -/
def retreatAll (blocks : List (Coupling α)) (y : Tensor α) : Tensor α :=
  blocks.foldr (fun block state => block.retreat state) y

/-- Whether a run back drops only zeros; the blocks are listed in the order in
which they are undone. -/
def DropsZeros : List (Coupling α) → Pair α → Prop
  | [], _ => True
  | block :: blocks, pair =>
      block.DropsZeros pair ∧ ∀ next, block.inverse pair = .ok next → DropsZeros blocks next

theorem shape_retreatAll {blocks : List (Coupling α)} {shape : Shape} (runs : Runs blocks shape)
    {y : Tensor α} (features : y.shape = output blocks shape) :
    (retreatAll blocks y).shape = shape := by
  induction blocks generalizing shape with
  | nil => exact features
  | cons block blocks ih =>
      exact Coupling.shape_retreat runs.head.1 runs.head.2 (ih runs.tail features)

theorem runInverse_append (front behind : List (Coupling α)) (pair : Pair α) :
    runInverse (front ++ behind) pair =
      (runInverse front pair >>= fun next => runInverse behind next) :=
  List.foldlM_append

/-- A run back retreats the merged tensor block by block. -/
theorem runInverse_cut {blocks : List (Coupling α)} {shape : Shape} (runs : Runs blocks shape)
    {y : Tensor α} (features : y.shape = output blocks shape) :
    runInverse blocks.reverse y.cut = .ok (retreatAll blocks y).cut := by
  induction blocks generalizing shape with
  | nil => rfl
  | cons block blocks ih =>
      obtain ⟨takes, shaped⟩ := runs.head
      have last : runInverse [block] (retreatAll blocks y).cut =
          .ok (retreatAll (block :: blocks) y).cut := by
        show (block.inverse (retreatAll blocks y).cut >>= pure) = _
        rw [Coupling.inverse_cut takes shaped (shape_retreatAll runs.tail features)]
        rfl
      rw [List.reverse_cons, runInverse_append, ih runs.tail features]
      exact last

theorem dropsZeros_append_iff {front behind : List (Coupling α)} {pair : Pair α} :
    DropsZeros (front ++ behind) pair ↔
      DropsZeros front pair ∧ ∀ next, runInverse front pair = .ok next → DropsZeros behind next := by
  induction front generalizing pair with
  | nil =>
      apply Iff.intro
      · intro zeros
        refine ⟨trivial, fun next reached => ?_⟩
        cases reached
        exact zeros
      · exact fun ⟨_, zeros⟩ => zeros pair rfl
  | cons block front ih =>
      rw [List.cons_append, DropsZeros, DropsZeros, and_assoc]
      apply and_congr_right
      intro _
      have step (next : Pair α) : runInverse (block :: front) pair = .ok next ↔
          ∃ middle, block.inverse pair = .ok middle ∧ runInverse front middle = .ok next :=
        Outcome.bind_eq_ok_iff
      apply Iff.intro
      · intro zeros
        refine ⟨fun middle reached => (ih.mp (zeros middle reached)).1, fun next reached => ?_⟩
        obtain ⟨middle, first, rest⟩ := (step next).mp reached
        exact (ih.mp (zeros middle first)).2 next rest
      · intro zeros middle reached
        rcases zeros with ⟨front_zeros, behind_zeros⟩
        exact ih.mpr ⟨front_zeros middle reached, fun next rest =>
          behind_zeros next ((step next).mpr ⟨middle, reached, rest⟩)⟩

end Walks

section Group

variable [AddGroup α]

/-- There and back through a stack is the identity. -/
theorem retreatAll_advanceAll {blocks : List (Coupling α)} {shape : Shape}
    (runs : Runs blocks shape) {x : Tensor α} (input : x.shape = shape) :
    retreatAll blocks (advanceAll blocks x) = x := by
  induction blocks generalizing shape x with
  | nil => rfl
  | cons block blocks ih =>
      obtain ⟨takes, shaped⟩ := runs.head
      show block.retreat (retreatAll blocks (advanceAll blocks (block.advance x))) = x
      rw [ih runs.tail (Coupling.shape_advance takes shaped input),
        Coupling.retreat_advance takes shaped input]

/-- Back and there through a stack gives the start exactly if the way back drops
only zeros. -/
theorem advanceAll_retreatAll_iff {blocks : List (Coupling α)} {shape : Shape}
    (runs : Runs blocks shape) {y : Tensor α} (features : y.shape = output blocks shape) :
    advanceAll blocks (retreatAll blocks y) = y ↔ DropsZeros blocks.reverse y.cut := by
  induction blocks generalizing shape with
  | nil => exact iff_of_true rfl trivial
  | cons block blocks ih =>
      obtain ⟨takes, shaped⟩ := runs.head
      have middle_shape := shape_retreatAll runs.tail features
      have here : block.advance (block.retreat (retreatAll blocks y)) = retreatAll blocks y ↔
          block.DropsZeros (retreatAll blocks y).cut :=
        (Coupling.advance_retreat_iff takes shaped middle_shape).trans
          (Coupling.dropsZeros_cut_iff takes shaped middle_shape).symm
      have last : (∀ next, runInverse blocks.reverse y.cut = .ok next →
          DropsZeros [block] next) ↔ block.DropsZeros (retreatAll blocks y).cut := by
        rw [runInverse_cut runs.tail features]
        apply Iff.intro
        · intro zeros
          exact (zeros _ rfl).1
        · intro zeros next reached
          cases reached
          exact ⟨zeros, fun _ _ => trivial⟩
      rw [List.reverse_cons, dropsZeros_append_iff, last, ← ih runs.tail features, ← here]
      show advanceAll blocks (block.advance (block.retreat (retreatAll blocks y))) = y ↔ _
      apply Iff.intro
      · intro again
        -- The blocks behind this one can be undone, so they have been given what they gave.
        have reached := congrArg (retreatAll blocks) again
        rw [retreatAll_advanceAll runs.tail
          (Coupling.shape_advance takes shaped (Coupling.shape_retreat takes shaped middle_shape))]
          at reached
        rw [reached] at again
        exact ⟨again, reached⟩
      · intro both
        rcases both with ⟨again, reached⟩
        rw [reached, again]

end Group

end Branch

end InvertibleNet
