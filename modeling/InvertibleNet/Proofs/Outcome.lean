/-
# Outcomes of checks

A check either succeeds or names the fault it met. These lemmas take a sequence
of checks apart: when it succeeds, and that it refuses with faults of one kind
only, those of the configuration or those of a shape.
-/

import InvertibleNet.Fault

namespace InvertibleNet.Outcome

universe u v

variable {ε : Type u} {α β : Type v}

theorem bind_eq_ok_iff {first : Except ε α} {next : α → Except ε β} {result : β} :
    first >>= next = .ok result ↔ ∃ value, first = .ok value ∧ next value = .ok result := by
  cases first with
  | error fault =>
      apply Iff.intro
      · intro h
        cases h
      · intro runs
        rcases runs with ⟨_, h, _⟩
        cases h
  | ok value =>
      apply Iff.intro
      · intro h
        exact ⟨value, rfl, h⟩
      · intro runs
        rcases runs with ⟨other, here, h⟩
        cases here
        exact h

/-- A check of every member succeeds exactly if it succeeds on each. -/
theorem forM_eq_ok_iff {check : α → Except ε PUnit} {items : List α} :
    items.forM check = .ok ⟨⟩ ↔ ∀ item ∈ items, check item = .ok ⟨⟩ := by
  induction items with
  | nil => exact ⟨fun _ _ h => by simp at h, fun _ => rfl⟩
  | cons item items ih =>
      show (check item >>= fun _ => items.forM check) = _ ↔ _
      rw [bind_eq_ok_iff, List.forall_mem_cons]
      apply Iff.intro
      · intro runs
        rcases runs with ⟨⟨⟩, here, rest⟩
        exact ⟨here, ih.mp rest⟩
      · intro checks
        rcases checks with ⟨here, rest⟩
        exact ⟨_, here, ih.mpr rest⟩

/-- A sequence fails where one of its steps does. -/
theorem bind_eq_error {first : Except ε α} {next : α → Except ε β} {fault : ε}
    (fails : first >>= next = .error fault) :
    first = .error fault ∨ ∃ value, first = .ok value ∧ next value = .error fault := by
  cases first with
  | error other =>
      cases fails
      exact .inl rfl
  | ok value => exact .inr ⟨value, rfl, fails⟩

/-- Whether a check refuses with faults of the configuration only. -/
def ConfigOnly (result : Except Fault α) : Prop :=
  ∀ fault, result = .error fault → fault.isConfig = true

theorem ConfigOnly.ok (value : α) : ConfigOnly (.ok value) := by
  intro fault h
  cases h

theorem ConfigOnly.config (cause : ConfigFault) :
    ConfigOnly (.error (.config cause) : Except Fault α) := by
  intro fault h
  cases h
  rfl

theorem ConfigOnly.bind {first : Except Fault α} {next : α → Except Fault β}
    (before : ConfigOnly first) (after : ∀ value, first = .ok value → ConfigOnly (next value)) :
    ConfigOnly (first >>= next) := by
  intro fault h
  rcases bind_eq_error h with fails | ⟨value, reached, fails⟩
  · exact before fault fails
  · exact after value reached fault fails

theorem ConfigOnly.forM {check : α → Except Fault PUnit} {items : List α}
    (each : ∀ item ∈ items, ConfigOnly (check item)) : ConfigOnly (items.forM check) := by
  induction items with
  | nil => exact ConfigOnly.ok _
  | cons item items ih =>
      apply ConfigOnly.bind (each item List.mem_cons_self)
      intro _ _
      exact ih fun other member => each other (List.mem_cons_of_mem item member)

theorem ConfigOnly.exists_cause {result : Except Fault α} (only : ConfigOnly result)
    (fails : ∀ value, result ≠ .ok value) : ∃ cause, result = .error (.config cause) := by
  cases result with
  | ok value => exact absurd rfl (fails value)
  | error fault =>
      cases fault with
      | config cause => exact ⟨cause, rfl⟩
      | shape cause => exact absurd (only _ rfl) Bool.false_ne_true
      | breakdown cause => exact absurd (only _ rfl) Bool.false_ne_true

/-- Whether a computation on tensors refuses them for their shapes only, and never breaks
off. -/
def ShapeOnly (result : Except Fault α) : Prop :=
  ∀ fault, result = .error fault → fault.isShape = true

theorem ShapeOnly.ok (value : α) : ShapeOnly (.ok value) := by
  intro fault h
  cases h

theorem ShapeOnly.shape (cause : ShapeFault) :
    ShapeOnly (.error (.shape cause) : Except Fault α) := by
  intro fault h
  cases h
  rfl

theorem ShapeOnly.bind {first : Except Fault α} {next : α → Except Fault β}
    (before : ShapeOnly first) (after : ∀ value, first = .ok value → ShapeOnly (next value)) :
    ShapeOnly (first >>= next) := by
  intro fault h
  rcases bind_eq_error h with fails | ⟨value, reached, fails⟩
  · exact before fault fails
  · exact after value reached fault fails

theorem ShapeOnly.exists_cause {result : Except Fault α} (only : ShapeOnly result)
    (fails : ∀ value, result ≠ .ok value) : ∃ cause, result = .error (.shape cause) := by
  cases result with
  | ok value => exact absurd rfl (fails value)
  | error fault =>
      cases fault with
      | shape cause => exact ⟨cause, rfl⟩
      | config cause => exact absurd (only _ rfl) Bool.false_ne_true
      | breakdown cause => exact absurd (only _ rfl) Bool.false_ne_true

end InvertibleNet.Outcome
