/-
# Traces through a stack

A trace lists the merged values that a walk leaves behind it. Forward these are
all partial advances from the front of the stack, and backward all partial
retreats from its end, put into the order of the blocks. So a place of either
list belongs to one block: forward it holds what the block received, backward
what the block has been undone to, and over a group these are the same.
-/

import InvertibleNet.Proofs.Coupling.Stack

namespace InvertibleNet

universe u

namespace Branch

open Outcome

variable {α : Type u}

theorem Runs.take {blocks : List (Coupling α)} {shape : Shape} (runs : Runs blocks shape)
    (count : Nat) : Runs (blocks.take count) shape := by
  induction blocks generalizing shape count with
  | nil =>
      rw [List.take_nil]
      exact runs
  | cons block blocks ih =>
      cases count with
      | zero => exact ⟨trivial, fun _ member => absurd member List.not_mem_nil⟩
      | succ count =>
          obtain ⟨takes, shaped⟩ := runs.head
          have rest := ih runs.tail count
          exact ⟨⟨takes, rest.passes⟩, List.forall_mem_cons.mpr ⟨shaped, rest.shaped⟩⟩

section Walks

variable [Zero α]

/-- Two walks, the second one from the pair that the first has reached, are one. -/
theorem walk_append {front behind : List (Pair α → Except Fault (Pair α))} {pair middle : Pair α}
    {states others : List (Tensor α)}
    (reached : front.foldlM (fun state step => step state) pair = .ok middle)
    (first : walk front pair = .ok states) (second : walk behind middle = .ok others) :
    walk (front ++ behind) pair = .ok (states ++ others) := by
  induction front generalizing pair states with
  | nil =>
      cases reached
      cases first
      exact second
  | cons step front ih =>
      obtain ⟨next, steps, reached⟩ := bind_eq_ok_iff.mp reached
      obtain ⟨_, again, first⟩ := bind_eq_ok_iff.mp first
      cases steps.symm.trans again
      obtain ⟨merged, joins, first⟩ := bind_eq_ok_iff.mp first
      obtain ⟨rest, walks, made⟩ := bind_eq_ok_iff.mp first
      cases made
      simp only [List.cons_append, walk, bind, Except.bind, steps, joins, ih reached walks]
      rfl

/-- A walk whose first step leads to the halves of a tensor leaves that tensor behind it. -/
theorem walk_cons_cut {step : Pair α → Except Fault (Pair α)}
    {steps : List (Pair α → Except Fault (Pair α))} {pair : Pair α} {state : Tensor α}
    (here : step pair = .ok state.cut) :
    walk (step :: steps) pair = (walk steps state.cut).map (state :: ·) := by
  simp only [walk, bind, Except.bind, here, Tensor.merge_cut]
  cases walk steps state.cut with
  | error fault => rfl
  | ok behind => rfl

variable [Add α]

/-- The states in front of the blocks and behind the last one, from the front on. -/
def advances (blocks : List (Coupling α)) (x : Tensor α) : List (Tensor α) :=
  blocks.scanl (fun state block => block.advance state) x

/-- A walk forward leaves behind it what advancing does. -/
theorem walk_forward_cut {blocks : List (Coupling α)} {shape : Shape} (runs : Runs blocks shape)
    {x : Tensor α} (input : x.shape = shape) :
    ∃ behind, walk (blocks.map (·.forward)) x.cut = .ok behind ∧
      x :: behind = advances blocks x := by
  induction blocks generalizing shape x with
  | nil => exact ⟨[], rfl, rfl⟩
  | cons block blocks ih =>
      obtain ⟨takes, shaped⟩ := runs.head
      obtain ⟨behind, walks, states⟩ := ih runs.tail (Coupling.shape_advance takes shaped input)
      refine ⟨block.advance x :: behind, ?_, ?_⟩
      · rw [List.map_cons, walk_cons_cut (Coupling.forward_cut takes shaped input), walks]
        rfl
      · rw [states, advances, advances, List.scanl_cons]

/-- Along a walk forward the shapes are those that the schedule hands on. -/
theorem shapes_advances {blocks : List (Coupling α)} {shape : Shape} (runs : Runs blocks shape)
    {x : Tensor α} (input : x.shape = shape) :
    (advances blocks x).map (·.shape) =
      blocks.scanl (fun state block => block.spec.output state) shape := by
  induction blocks generalizing shape x with
  | nil => exact congrArg (fun only => [only]) input
  | cons block blocks ih =>
      rw [advances, List.scanl_cons, List.scanl_cons, List.map_cons, input]
      exact congrArg _ (ih runs.tail (Coupling.shape_advance runs.head.1 runs.head.2 input))

/-- What stands at a place of the advances is what the block there receives. -/
theorem getElem?_advances {blocks : List (Coupling α)} {shape : Shape} (runs : Runs blocks shape)
    {x : Tensor α} (input : x.shape = shape) {place : Nat} (bound : place ≤ blocks.length) :
    ∃ state, (advances blocks x)[place]? = some state ∧
      runForward (blocks.take place) x.cut = .ok state.cut := by
  refine ⟨advanceAll (blocks.take place) x, ?_, runForward_cut (runs.take place) input⟩
  rw [advances, List.getElem?_scanl, if_pos bound]
  rfl

variable [Neg α]

/-- The states that undoing the blocks leads to, in the order of the blocks; the
last one is where it starts. -/
def retreats (blocks : List (Coupling α)) (y : Tensor α) : List (Tensor α) :=
  blocks.scanr (fun block state => block.retreat state) y

theorem retreats_cons (block : Coupling α) (blocks : List (Coupling α)) (y : Tensor α) :
    retreats (block :: blocks) y = retreatAll (block :: blocks) y :: retreats blocks y :=
  List.scanr_cons

/-- A walk back leaves behind it what retreating does, the other way round. -/
theorem walk_inverse_cut {blocks : List (Coupling α)} {shape : Shape} (runs : Runs blocks shape)
    {y : Tensor α} (features : y.shape = output blocks shape) :
    ∃ behind, walk (blocks.reverse.map (·.inverse)) y.cut = .ok behind ∧
      (y :: behind).reverse = retreats blocks y := by
  induction blocks generalizing shape with
  | nil => exact ⟨[], rfl, rfl⟩
  | cons block blocks ih =>
      obtain ⟨takes, shaped⟩ := runs.head
      obtain ⟨behind, walks, states⟩ := ih runs.tail features
      have reached : (blocks.reverse.map (·.inverse)).foldlM (fun state step => step state) y.cut =
          .ok (retreatAll blocks y).cut := by
        rw [List.foldlM_map]
        exact runInverse_cut runs.tail features
      have last : walk [block.inverse] (retreatAll blocks y).cut =
          .ok [retreatAll (block :: blocks) y] :=
        walk_cons_cut (Coupling.inverse_cut takes shaped (shape_retreatAll runs.tail features))
      refine ⟨behind ++ [retreatAll (block :: blocks) y], ?_, ?_⟩
      · rw [List.reverse_cons, List.map_append]
        exact walk_append reached walks last
      · rw [← List.cons_append, List.reverse_append, states, retreats_cons]
        rfl

/-- Along a walk back the shapes are those of the way forward. -/
theorem shapes_retreats {blocks : List (Coupling α)} {shape : Shape} (runs : Runs blocks shape)
    {y : Tensor α} (features : y.shape = output blocks shape) :
    (retreats blocks y).map (·.shape) =
      blocks.scanl (fun state block => block.spec.output state) shape := by
  induction blocks generalizing shape with
  | nil => exact congrArg (fun only => [only]) features
  | cons block blocks ih =>
      rw [retreats_cons, List.scanl_cons, List.map_cons, shape_retreatAll runs features,
        ih runs.tail features]

/-- What the last block refuses, the way back refuses, with or without a trace. -/
theorem runInverse_refuses {blocks : List (Coupling α)} {last : Coupling α}
    (ends : blocks.getLast? = some last) {pair : Pair α} {fault : Fault}
    (refused : last.inverse pair = .error fault) :
    runInverse blocks.reverse pair = .error fault ∧
      walk (blocks.reverse.map (·.inverse)) pair = .error fault := by
  obtain ⟨front, rfl⟩ := List.getLast?_eq_some_iff.mp ends
  rw [List.reverse_append]
  refine ⟨?_, ?_⟩
  · show (last.inverse pair >>= fun next => runInverse front.reverse next) = _
    rw [refused]
    rfl
  · show (last.inverse pair >>= fun next => _) = _
    rw [refused]
    rfl

end Walks

/-- Over a group the way back passes through the states of the way forward. -/
theorem retreats_advanceAll {β : Type u} [AddGroup β] {blocks : List (Coupling β)} {shape : Shape}
    (runs : Runs blocks shape) {x : Tensor β} (input : x.shape = shape) :
    retreats blocks (advanceAll blocks x) = advances blocks x := by
  induction blocks generalizing shape x with
  | nil => rfl
  | cons block blocks ih =>
      have rest := ih runs.tail (Coupling.shape_advance runs.head.1 runs.head.2 input)
      rw [retreats_cons, retreatAll_advanceAll runs input, advances, List.scanl_cons]
      exact congrArg (x :: ·) rest

end Branch

end InvertibleNet
