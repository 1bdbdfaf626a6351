/-
# One more block in a stage

A stage that is deepened by one block gets a block that repeats its width at stride one,
behind all blocks that it has. Everything behind the new block moves up by one number and is
otherwise left alone, as the new block passes on the channels it takes.
-/

import InvertibleNet.Proofs.Schedule.Places

namespace InvertibleNet

/-- The same block one place further on. -/
def BlockSpec.raised (spec : BlockSpec) : BlockSpec := { spec with index := spec.index + 1 }

namespace Schedule

variable {channels blocks strides : List Nat} {stage depth width stride : Nat}

/-! ## Stage lists -/

/-- One more block at the end of a stage repeats its width at stride one. -/
theorem zip_stage_succ (width depth stride : Nat) :
    (List.replicate (depth + 2) width).zip (stageStrides (depth + 2) stride) =
      (List.replicate (depth + 1) width).zip (stageStrides (depth + 1) stride) ++
        [(width, 1)] := by
  rw [zip_stage, zip_stage, List.replicate_succ', List.cons_append]

theorem length_zip_stage (width depth stride : Nat) :
    ((List.replicate depth width).zip (stageStrides depth stride)).length = depth := by
  simp

/-- A deeper stage has one more step, behind its last one. -/
theorem zip_flattened_modify (deep : blocks[stage]? = some (depth + 1))
    (wide : channels[stage]? = some width) (strode : strides[stage]? = some stride) :
    (flattenedChannels channels (blocks.modify stage (· + 1))).zip
        (flattenedStrides (blocks.modify stage (· + 1)) strides) =
      ((flattenedChannels channels blocks).zip (flattenedStrides blocks strides)).take
          (place blocks (stage + 1) 0) ++ (width, 1) ::
        ((flattenedChannels channels blocks).zip (flattenedStrides blocks strides)).drop
          (place blocks (stage + 1) 0) := by
  induction blocks generalizing channels strides stage with
  | nil => cases deep
  | cons firstDepth blocks ih =>
      cases channels with
      | nil => cases wide
      | cons firstWidth channels =>
          cases strides with
          | nil => cases strode
          | cons firstStride strides =>
              rw [place_cons_succ]
              cases stage with
              | zero =>
                  cases deep
                  cases wide
                  cases strode
                  rw [List.modify_zero_cons, zip_flattened_cons, zip_flattened_cons,
                    zip_stage_succ, place_zero, List.take_left' (length_zip_stage _ _ _),
                    List.drop_left' (length_zip_stage _ _ _), List.append_assoc]
                  rfl
              | succ stage =>
                  have later := ih deep wide strode
                  have here : ((List.replicate firstDepth firstWidth).zip
                      (stageStrides firstDepth firstStride)).length ≤
                        firstDepth + place blocks (stage + 1) 0 := by
                    rw [length_zip_stage]
                    exact Nat.le_add_right _ _
                  rw [List.modify_succ_cons, zip_flattened_cons, zip_flattened_cons, later,
                    List.take_append, List.drop_append, List.take_of_length_le here,
                    List.drop_of_length_le here, length_zip_stage, Nat.add_sub_cancel_left,
                    List.nil_append, List.append_assoc]

/-! ## The chain of blocks -/

/-- What enters a step of two lists behind each other, counted from the start of the second
one. -/
theorem entering_append (inChannels : Nat) (front back : List (Nat × Nat)) (place : Nat) :
    entering inChannels (front ++ back) (front.length + place) =
      entering (entering inChannels front front.length) back place := by
  induction front generalizing inChannels with
  | nil => rw [List.nil_append, List.length_nil, Nat.zero_add, entering]
  | cons step front ih =>
      rw [List.cons_append, List.length_cons, Nat.add_right_comm, entering_cons, ih, entering_cons]

theorem chain_append (index inChannels : Nat) (front back : List (Nat × Nat)) :
    chain index inChannels (front ++ back) = chain index inChannels front ++
      chain (index + front.length) (entering inChannels front front.length) back := by
  induction front generalizing index inChannels with
  | nil => rfl
  | cons step front ih =>
      rw [List.cons_append, chain, ih, chain, List.length_cons, entering_cons, List.cons_append,
        Nat.add_right_comm, Nat.add_assoc]

/-- A chain that does not start with the first block can start one number higher. -/
theorem chain_raised {index : Nat} (later : 1 ≤ index) (inChannels : Nat)
    (steps : List (Nat × Nat)) :
    chain (index + 1) inChannels steps = (chain index inChannels steps).map (·.raised) := by
  induction steps generalizing index inChannels with
  | nil => rfl
  | cons step steps ih =>
      have first : decide (index + 1 = 0) = decide (index = 0) := by
        rw [decide_eq_false (by omega), decide_eq_false (by omega)]
      rw [chain, chain, List.map_cons, ih (by omega), first]
      rfl

/-- The block that a deeper stage has at the given place. -/
def repeated (place width : Nat) : BlockSpec where
  index := place
  inChannels := 2 * width
  outChannels := width
  stride := 1
  isFirst := false

section Insert

variable {steps : List (Nat × Nat)} {place inChannels : Nat}

/-- What enters a step comes out of the steps in front of it. -/
theorem entering_take (inside : place ≤ steps.length) :
    entering inChannels (steps.take place) (steps.take place).length =
      entering inChannels steps place := by
  have whole := entering_append inChannels (steps.take place) (steps.drop place) 0
  rw [List.take_append_drop, Nat.add_zero, List.length_take_of_le inside] at whole
  rw [List.length_take_of_le inside]
  exact whole.symm

/-- A step that passes on the channels it takes, anywhere but in front, becomes one more block
and moves the blocks behind it. -/
theorem chain_insert (later : 1 ≤ place) (inside : place ≤ steps.length)
    (keeps : entering inChannels steps place = 2 * width) :
    chain 0 inChannels (steps.take place ++ (width, 1) :: steps.drop place) =
      (chain 0 inChannels steps).take place ++ repeated place width ::
        ((chain 0 inChannels steps).drop place).map (·.raised) := by
  have length : (steps.take place).length = place := List.length_take_of_le inside
  have enters := (entering_take inside).trans keeps
  have old : chain 0 inChannels steps = chain 0 inChannels (steps.take place) ++
      chain place (2 * width) (steps.drop place) := by
    have whole := chain_append 0 inChannels (steps.take place) (steps.drop place)
    rwa [List.take_append_drop, enters, length, Nat.zero_add] at whole
  rw [chain_append, enters, length, Nat.zero_add, chain, chain_raised later, old,
    List.take_left' (by rw [length_chain, length]), List.drop_left' (by rw [length_chain, length]),
    decide_eq_false (by omega)]
  rfl

/-- Such a step changes nothing about what leaves the last one. -/
theorem entering_insert (inside : place ≤ steps.length)
    (keeps : entering inChannels steps place = 2 * width) :
    entering inChannels (steps.take place ++ (width, 1) :: steps.drop place) (steps.length + 1) =
      entering inChannels steps steps.length := by
  have enters := (entering_take inside).trans keeps
  have length : (steps.take place).length + (steps.drop place).length = steps.length := by
    rw [← List.length_append, List.take_append_drop]
  have old := entering_append inChannels (steps.take place) (steps.drop place)
    (steps.drop place).length
  have new := entering_append inChannels (steps.take place) ((width, 1) :: steps.drop place)
    ((steps.drop place).length + 1)
  rw [List.take_append_drop, enters, length] at old
  rw [enters, ← Nat.add_assoc, length, entering_cons] at new
  exact new.trans old.symm

end Insert

/-- What leaves the last block of a chain is what would enter another one. -/
theorem features_chain {steps : List (Nat × Nat)} (nonempty : steps ≠ []) (index inChannels : Nat) :
    2 * (chain index inChannels steps).getLast?.elim 0 (·.outChannels) =
      entering inChannels steps steps.length := by
  cases length : steps.length with
  | zero => exact absurd (List.length_eq_zero_iff.mp length) nonempty
  | succ count =>
      rw [List.getLast?_eq_getElem?, length_chain, length, Nat.add_sub_cancel, getElem?_chain,
        entering, List.getD_eq_getElem?_getD]
      cases steps[count]? with
      | none => rfl
      | some step => rfl

end Schedule

end InvertibleNet
