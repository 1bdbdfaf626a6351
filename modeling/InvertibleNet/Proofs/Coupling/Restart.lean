/-
# Where a walk can be taken up again

A walk carries pairs and leaves only their merged values behind. So it can be taken up again
at a value it left behind exactly if the pair can be told from it, that is, if the place of
the cut is known. Behind a step forward the two halves have the width that the block puts
out, and behind a step back they are the halves of what it takes. Both are read off the
blocks next to the place, whether or not they pad or rearrange.
-/

import InvertibleNet.Proofs.Coupling.Recovery
import InvertibleNet.Proofs.Coupling.Trace

namespace InvertibleNet

universe u v

open Outcome

variable {α : Type u} [Zero α]

/-- A merged pair with halves of the same width is cut in the middle. -/
theorem Pair.cut_of_merge {pair : Pair α} {merged : Tensor α} (merges : pair.merge = .ok merged)
    (halves : pair.1.shape.channels = pair.2.shape.channels) :
    merged.cut = pair ∧ merged.shape.channels = 2 * pair.1.shape.channels := by
  obtain ⟨aligned, rfl⟩ := Pair.merge_eq_ok_iff.mp merges
  rw [Tensor.cut_append aligned (by omega), Tensor.shape_append]
  exact ⟨rfl, by show _ + _ = _; omega⟩

namespace Coupling

variable {block : Coupling α} {pair moved : Pair α}

/-- Both halves of what a block puts out have its width. -/
theorem widths_of_forward [Add α] (sound : block.spec.Sound) (shaped : block.IsShapedThroughout)
    (steps : block.forward pair = .ok moved) :
    moved.1.shape.channels = block.spec.outChannels ∧
      moved.2.shape.channels = block.spec.outChannels := by
  obtain ⟨-, halves, rearranged, -, couples⟩ := forward_eq_ok steps
  obtain ⟨-, gathered⟩ := couples.second_moved sound
  have first : moved.1.shape.channels = block.spec.outChannels := by
    rw [gathered, Psi.shape_gather sound.stride_pos]
    show _ * _ * halves.2.shape.channels = _
    rw [couples.channels]
    exact sound.area
  refine ⟨first, ?_⟩
  rw [couples.sum, Tensor.shape_add, couples.shape_residual sound shaped]
  exact first

/-- What shrinking leaves of two halves of the width of the block, cut in the middle. -/
theorem widths_of_shrink (sound : block.spec.Sound) {halves back : Pair α}
    (first : halves.1.shape.channels = block.spec.halfChannels)
    (second : halves.2.shape.channels = block.spec.halfChannels)
    (even : block.spec.inChannels % 2 = 0) (shrinks : block.shrink halves = .ok back) :
    back.1.shape.channels = block.spec.inChannels / 2 ∧
      back.2.shape.channels = block.spec.inChannels / 2 := by
  have halved := sound.halves
  unfold shrink at shrinks
  split at shrinks
  · obtain ⟨merged, merges, rest⟩ := bind_eq_ok_iff.mp shrinks
    obtain ⟨kept, drops, cuts⟩ := bind_eq_ok_iff.mp rest
    have width := (Pair.cut_of_merge merges (first.trans second.symm)).2
    have pair := sound.pair
    rw [Tensor.unpadChannels_eq_range (by omega)] at drops
    cases drops
    have left : merged.shape.channels - block.spec.pad = block.spec.inChannels := by omega
    rw [left] at cuts
    have cut : (merged.channelRange 0 block.spec.inChannels).splitAt (block.spec.inChannels / 2) =
        .ok (merged.channelRange 0 block.spec.inChannels).cut := Tensor.splitAt_half pair
    cases cut.symm.trans cuts
    exact ⟨rfl, by show block.spec.inChannels - block.spec.inChannels / 2 = _; omega⟩
  · next unpadded =>
    cases shrinks
    omega

variable [Add α] [Neg α]

/-- The two halves of what a block is undone to have the channels it takes. -/
theorem widths_of_inverse (sound : block.spec.Sound) (shaped : block.IsShapedThroughout)
    {back : Pair α} (steps : block.inverse pair = .ok back)
    (even : block.spec.inChannels % 2 = 0) :
    back.1.shape.channels = block.spec.inChannels / 2 ∧
      back.2.shape.channels = block.spec.inChannels / 2 := by
  obtain ⟨first, second, -, channels, pixels, -, restores, shrinks⟩ := inverse_eq_ok steps
  have sum_shape : (-block.residual second + pair.2).shape = block.spec.residualShape second.shape :=
    shaped second pixels channels
  have sum_pixels : (block.spec.residualShape second.shape).hasPixels = true :=
    Shape.hasPixels_iff.mpr ⟨Nat.succ_pos _, Nat.succ_pos _⟩
  rw [← sum_shape] at sum_pixels
  have sum_channels : (-block.residual second + pair.2).shape.channels = block.spec.outChannels := by
    rw [sum_shape]
    rfl
  have area : block.psi.block * block.psi.block ∣
      (-block.residual second + pair.2).shape.channels := sum_channels ▸ sound.area_dvd
  have first_channels : first.shape.channels = block.spec.halfChannels := by
    rw [Psi.shape_inverse_of_hasPixels sound.stride_pos sound.area_lt
      (sum_channels ▸ sound.outChannels_pos) area sum_pixels restores]
    show (-block.residual second + pair.2).shape.channels / (_ * _) = _
    rw [sum_channels, ← sound.area]
    exact Nat.mul_div_cancel_left _ (Nat.mul_pos sound.stride_pos sound.stride_pos)
  exact widths_of_shrink sound first_channels channels even shrinks

end Coupling

namespace Branch

/-! ## Walks -/

theorem length_of_walk {steps : List (Pair α → Except Fault (Pair α))} {pair : Pair α}
    {states : List (Tensor α)} (walks : walk steps pair = .ok states) :
    states.length = steps.length := by
  induction steps generalizing pair states with
  | nil =>
      cases walks
      rfl
  | cons step steps ih =>
      obtain ⟨next, -, rest⟩ := bind_eq_ok_iff.mp walks
      obtain ⟨merged, -, rest⟩ := bind_eq_ok_iff.mp rest
      obtain ⟨behind, goes_on, made⟩ := bind_eq_ok_iff.mp rest
      cases made
      rw [List.length_cons, List.length_cons, ih goes_on]

/-- Whether the pair behind a step can be told from its merge by a cut. -/
def CutBehind (step : Pair α → Except Fault (Pair α)) (cut : Tensor α → Except Fault (Pair α)) :
    Prop :=
  ∀ pair next merged, step pair = .ok next → next.merge = .ok merged → cut merged = .ok next

/-- A walk is taken up again at any of its places: the cut in front of the step there gives the
pair that the walk had, and from it the walk leaves behind what it left the first time. -/
theorem walk_restarts {ι : Type v} {step : ι → Pair α → Except Fault (Pair α)}
    {cut : ι → Tensor α → Except Fault (Pair α)} {items : List ι}
    (cuts : items.IsChain fun before after => CutBehind (step before) (cut after))
    {first : Tensor α} {pair : Pair α} (starts : ∀ item ∈ items.head?, cut item first = .ok pair)
    {states : List (Tensor α)} (walks : walk (items.map step) pair = .ok states)
    {place : Nat} {item : ι} (here : items[place]? = some item) :
    ∃ state reached, (first :: states)[place]? = some state ∧ cut item state = .ok reached ∧
      walk ((items.drop place).map step) reached = .ok (states.drop place) := by
  induction items generalizing first pair states place with
  | nil => cases here
  | cons head items ih =>
      cases place with
      | zero =>
          cases here
          exact ⟨first, pair, rfl, starts item rfl, walks⟩
      | succ place =>
          obtain ⟨next, steps, rest⟩ := bind_eq_ok_iff.mp walks
          obtain ⟨merged, merges, rest⟩ := bind_eq_ok_iff.mp rest
          obtain ⟨behind, goes_on, made⟩ := bind_eq_ok_iff.mp rest
          cases made
          obtain ⟨front, later⟩ := List.isChain_cons.mp cuts
          exact ih later (fun after member => front after member pair next merged steps merges)
            goes_on here

variable [Add α] {blocks : List (Coupling α)}

/-- Whether a block takes both halves of what the block before it puts out. -/
def Feeds (before after : Coupling α) : Prop := after.spec.inChannels = 2 * before.spec.outChannels

theorem cutBehind_forward {before after : Coupling α} (sound : before.spec.Sound)
    (shaped : before.IsShapedThroughout) (feeds : Feeds before after) :
    CutBehind before.forward fun state => state.splitAt (after.spec.inChannels / 2) := by
  intro pair next merged steps merges
  obtain ⟨first, second⟩ := Coupling.widths_of_forward sound shaped steps
  obtain ⟨cut, width⟩ := Pair.cut_of_merge merges (first.trans second.symm)
  have wide := sound.outChannels_pos
  have middle : after.spec.inChannels / 2 = merged.shape.channels / 2 := by rw [feeds, width, first]
  show merged.splitAt (after.spec.inChannels / 2) = _
  rw [middle, Tensor.splitAt_half (by omega), cut]

theorem cutBehind_inverse [Neg α] {before after : Coupling α} (sound : after.spec.Sound)
    (shaped : after.IsShapedThroughout) (feeds : Feeds before after) :
    CutBehind after.inverse Tensor.split := by
  intro pair next merged steps merges
  have pair_taken := sound.pair
  have even : after.spec.inChannels % 2 = 0 := by rw [feeds]; exact Nat.mul_mod_right 2 _
  obtain ⟨first, second⟩ := Coupling.widths_of_inverse sound shaped steps even
  obtain ⟨cut, width⟩ := Pair.cut_of_merge merges (first.trans second.symm)
  rw [Tensor.split_eq_cut (by omega) (by omega), cut]

/-- Forward, a walk is taken up again at what a block receives, cut at half the channels that the
block takes. -/
theorem walk_forward_restarts (sound : ∀ block ∈ blocks, block.spec.Sound)
    (shaped : ∀ block ∈ blocks, block.IsShapedThroughout) (feeds : blocks.IsChain Feeds)
    {first : Tensor α} {pair : Pair α}
    (starts : ∀ block ∈ blocks.head?, first.splitAt (block.spec.inChannels / 2) = .ok pair)
    {states : List (Tensor α)} (walks : walk (blocks.map (·.forward)) pair = .ok states)
    {place : Nat} {block : Coupling α} (here : blocks[place]? = some block) :
    ∃ state reached, (first :: states)[place]? = some state ∧
      state.splitAt (block.spec.inChannels / 2) = .ok reached ∧
      walk ((blocks.drop place).map (·.forward)) reached = .ok (states.drop place) := by
  have cuts : blocks.IsChain fun before after => CutBehind before.forward
      fun state => state.splitAt (after.spec.inChannels / 2) :=
    feeds.imp_of_mem_imp fun before _ member _ next =>
      cutBehind_forward (sound before member) (shaped before member) next
  exact walk_restarts cuts starts walks here

/-- Back, a walk is taken up again at what a block is undone to, cut in the middle. -/
theorem walk_inverse_restarts [Neg α] (sound : ∀ block ∈ blocks, block.spec.Sound)
    (shaped : ∀ block ∈ blocks, block.IsShapedThroughout) (feeds : blocks.IsChain Feeds)
    {last : Tensor α} {pair : Pair α} (starts : last.split = .ok pair)
    {states : List (Tensor α)} (walks : walk (blocks.reverse.map (·.inverse)) pair = .ok states)
    {place : Nat} (some_block : 1 ≤ place) (inside : place ≤ blocks.length) :
    ∃ state reached behind, (last :: states).reverse[place]? = some state ∧
      state.split = .ok reached ∧
      walk ((blocks.take place).reverse.map (·.inverse)) reached = .ok behind ∧
      behind.reverse = (last :: states).reverse.take place := by
  have cuts : blocks.reverse.IsChain fun before _ => CutBehind before.inverse Tensor.split := by
    rw [List.isChain_reverse]
    exact feeds.imp_of_mem_imp fun _ after _ member next =>
      cutBehind_inverse (sound after member) (shaped after member) next
  have length := length_of_walk walks
  rw [List.length_map, List.length_reverse] at length
  have here : blocks.reverse[blocks.length - place]? = blocks[place - 1]? :=
    List.getElem?_reverse' (by omega)
  rw [List.getElem?_eq_getElem (show place - 1 < blocks.length by omega)] at here
  obtain ⟨state, reached, found, splits, goes_on⟩ :=
    walk_restarts cuts (fun _ _ => starts) walks here
  refine ⟨state, reached, states.drop (blocks.length - place), ?_, splits, ?_, ?_⟩
  · rw [← found]
    exact List.getElem?_reverse' (by rw [List.length_cons]; omega)
  · rw [List.reverse_take]
    exact goes_on
  · rw [List.take_reverse, List.length_cons, length, Nat.succ_sub inside, List.drop_succ_cons]

end Branch

end InvertibleNet
