/-
# What an action gives and leaves

An action that finishes gives a value and leaves a session, and one that fails leaves
a session as well. These lemmas take an action apart along its steps, so that a
statement about what a command gives, or about the files it leaves, is proved from
what its steps give and leave.
-/

import InvertibleNet.Storage.Session
import Mathlib.Order.Defs.Unbundled

namespace InvertibleNet.Action

variable {α β : Type} {before after : Session}

/-- Whether an action finishes, with a value and a session. -/
def Gives (action : Action α) (before : Session) (value : α) (after : Session) : Prop :=
  action.run.run before = (.ok value, after)

/-- An action whose result is no failure finishes. -/
theorem exists_gives {action : Action α} (finishes : (action.run.run before).1.isOk = true) :
    ∃ value after, action.Gives before value after := by
  unfold Gives
  cases ends : action.run.run before with
  | mk result after =>
      rw [ends] at finishes
      cases result with
      | ok value => exact ⟨value, after, rfl⟩
      | error cause => cases finishes

/-- An action that finishes does so in one way. -/
theorem Gives.unique {action : Action α} {value other : α} {last : Session}
    (gives : action.Gives before value after) (again : action.Gives before other last) :
    value = other ∧ after = last := by
  cases gives.symm.trans again
  exact ⟨rfl, rfl⟩

theorem gives_bind_iff {action : Action α} {next : α → Action β} {value : β} :
    (action >>= next).Gives before value after ↔
      ∃ middle session, action.Gives before middle session ∧
        (next middle).Gives session value after := by
  have steps : (action >>= next).run.run before =
      (match action.run.run before with
        | (.ok middle, session) => (next middle).run.run session
        | (.error cause, session) => (.error cause, session) :
          Except Failure β × Session) := by
    show (match action.run.run before with
      | (result, session) => (ExceptT.bindCont next result).run session) = _
    rcases action.run.run before with ⟨_ | _, _⟩
    · rfl
    · rfl
  unfold Gives
  rw [steps]
  rcases action.run.run before with ⟨cause | middle, session⟩
  · apply Iff.intro
    · intro finished
      cases finished
    · intro runs
      rcases runs with ⟨_, _, finished, -⟩
      cases finished
  · apply Iff.intro
    · intro finished
      exact ⟨middle, session, rfl, finished⟩
    · intro runs
      rcases runs with ⟨_, _, first, rest⟩
      cases first
      exact rest

/-- Behind a step that finishes, it is left to the rest whether an action finishes. -/
theorem Gives.exists_bind {action : Action α} {next : α → Action β} {middle : α} {value : β}
    (first : action.Gives before middle after)
    (rest : ∃ last, (next middle).Gives after value last) :
    ∃ last, (action >>= next).Gives before value last := by
  obtain ⟨last, finishes⟩ := rest
  exact ⟨last, gives_bind_iff.mpr ⟨middle, after, first, finishes⟩⟩

theorem gives_pure_iff {result value : α} :
    (pure result : Action α).Gives before value after ↔ result = value ∧ before = after := by
  show ((.ok result, before) : Except Failure α × Session) = (.ok value, after) ↔ _
  rw [Prod.mk.injEq, Except.ok.injEq]

theorem gives_compute_iff {result : Except Fault α} {value : α} :
    (compute result).Gives before value after ↔ result = .ok value ∧ before = after := by
  cases result with
  | ok found =>
      rw [Except.ok.injEq]
      exact gives_pure_iff
  | error cause =>
      show ((.error (.fault cause), before) : Except Failure α × Session) = (.ok value, after) ↔ _
      simp

theorem gives_throw_iff {cause : Failure} {value : α} :
    (throw cause : Action α).Gives before value after ↔ False := by
  show ((.error cause, before) : Except Failure α × Session) = (.ok value, after) ↔ False
  simp

/-- An action that looks at the session first. -/
theorem gives_get_bind_iff {next : Session → Action β} {value : β} :
    ((get : Action Session) >>= next).Gives before value after ↔
      (next before).Gives before value after := by
  rw [gives_bind_iff]
  constructor
  · rintro ⟨_, _, found, rest⟩
    cases found
    exact rest
  · intro rest
    exact ⟨before, before, rfl, rest⟩

theorem gives_modify_iff {change : Session → Session} {done : Unit} :
    (modify change : Action Unit).Gives before done after ↔ after = change before := by
  show ((.ok ⟨⟩, change before) : Except Failure Unit × Session) = (.ok done, after) ↔ _
  simp [eq_comm]

theorem gives_log_iff {level : Level} {origin : Origin} {message : String} {done : Unit} :
    (log level origin message).Gives before done after ↔
      after = { before with log := before.log ++ [⟨level, origin, message⟩] } :=
  gives_modify_iff

/-- An attempt gives what its action gives. -/
theorem gives_attempting_iff {attempt : Attempt} {action : Action α} {value : α} :
    (attempting attempt action).Gives before value after ↔ action.Gives before value after := by
  unfold Gives
  have steps : (attempting attempt action).run.run before =
      (match action.run.run before with
        | (.ok found, session) => (.ok found, session)
        | (.error cause, session) => (.error (.during attempt cause), session) :
          Except Failure α × Session) := by
    unfold attempting
    rw [ExceptT.run_tryCatch, StateT.run_bind]
    rcases action.run.run before with ⟨_ | _, _⟩
    · rfl
    · rfl
  rw [steps]
  rcases action.run.run before with ⟨cause | found, session⟩
  · exact iff_of_false (fun ends => by cases ends) (fun ends => by cases ends)
  · rfl

theorem gives_reading_iff {read : FileTree → Except FileFault α} {value : α} :
    (reading read).Gives before value after ↔ read before.files = .ok value ∧ before = after := by
  unfold reading
  rw [gives_get_bind_iff]
  cases read before.files with
  | ok found =>
      rw [Except.ok.injEq]
      exact gives_pure_iff
  | error cause => simp [gives_throw_iff]

theorem gives_changing_iff {change : FileTree → Except FileFault FileTree} {done : Unit} :
    (changing change).Gives before done after ↔
      ∃ files, change before.files = .ok files ∧ after = { before with files := files } := by
  unfold changing
  simp only [gives_bind_iff, gives_reading_iff, gives_modify_iff]
  constructor
  · rintro ⟨files, _, ⟨changed, rfl⟩, rfl⟩
    exact ⟨files, changed, rfl⟩
  · rintro ⟨files, changed, rfl⟩
    exact ⟨files, before, ⟨changed, rfl⟩, rfl⟩

theorem gives_ensureDirectory_iff {path : String} {done : Unit} :
    (ensureDirectory path).Gives before done after ↔
      (before.files.ensureDirectory path).2 = none ∧
        after = { before with files := (before.files.ensureDirectory path).1 } := by
  unfold ensureDirectory
  rw [gives_get_bind_iff]
  rcases before.files.ensureDirectory path with ⟨files, _ | cause⟩
  · simp only [gives_bind_iff, gives_modify_iff]
    constructor
    · rintro ⟨_, _, rfl, finished⟩
      exact ⟨trivial, (gives_pure_iff.mp finished).2.symm⟩
    · rintro ⟨-, rfl⟩
      exact ⟨⟨⟩, _, rfl, gives_pure_iff.mpr ⟨rfl, rfl⟩⟩
  · simp [gives_bind_iff, gives_throw_iff]

/-! ## The files that are left -/

/-- The files behind an action, whether it finishes or fails. -/
def leaves (action : Action α) (before : Session) : FileTree := (action.run.run before).2.files

theorem Gives.leaves_eq {action : Action α} {value : α} (gives : action.Gives before value after) :
    action.leaves before = after.files := by
  rw [leaves, gives]

/-- Behind a step that finishes, the rest goes on. -/
theorem Gives.leaves_bind {action : Action α} {value : α} (gives : action.Gives before value after)
    (next : α → Action β) : (action >>= next).leaves before = (next value).leaves after := by
  show (match action.run.run before with
    | (result, session) => (ExceptT.bindCont next result).run session).2.files = _
  rw [gives]
  rfl

/-- Behind a step that fails, nothing happens. -/
theorem leaves_bind_of_fails {action : Action α}
    (fails : ∀ value after, ¬ action.Gives before value after) (next : α → Action β) :
    (action >>= next).leaves before = action.leaves before := by
  show (match action.run.run before with
    | (result, session) => (ExceptT.bindCont next result).run session).2.files = _
  unfold leaves
  cases ends : action.run.run before with
  | mk result session =>
      cases result with
      | ok value => exact absurd ends (fails value session)
      | error cause => rfl

/-- Whether the files in front of an action and those behind it are in a relation, also
if it fails. -/
def Keeps (relation : FileTree → FileTree → Prop) (action : Action α) (before : Session) : Prop :=
  relation before.files (action.leaves before)

section Keeps

variable {relation : FileTree → FileTree → Prop}

/-- What the steps of an action keep, the action keeps. -/
theorem keeps_bind [IsTrans FileTree relation] {action : Action α} {next : α → Action β}
    (first : action.Keeps relation before)
    (rest : ∀ value middle, action.Gives before value middle →
      (next value).Keeps relation middle) : (action >>= next).Keeps relation before := by
  unfold Keeps at *
  by_cases finishes : ∃ value middle, action.Gives before value middle
  · obtain ⟨value, middle, gives⟩ := finishes
    rw [gives.leaves_bind]
    rw [gives.leaves_eq] at first
    exact IsTrans.trans _ _ _ first (rest value middle gives)
  · rw [leaves_bind_of_fails fun value middle gives => finishes ⟨value, middle, gives⟩]
    exact first

/-- Files that stay as they are stay in every reflexive relation. -/
theorem keeps_of_eq [Std.Refl relation] {action : Action α} (same : action.Keeps Eq before) :
    action.Keeps relation before := by
  unfold Keeps at *
  rw [← same]
  exact Std.Refl.refl before.files

/-- Behind steps that only read, the files are those of the first step. -/
theorem leaves_bind_of_keeps {action : Action α} {next : α → Action β}
    (reads : ∀ value after, (next value).Keeps Eq after) :
    (action >>= next).leaves before = action.leaves before := by
  by_cases finishes : ∃ value after, action.Gives before value after
  · obtain ⟨value, after, gives⟩ := finishes
    rw [gives.leaves_bind, gives.leaves_eq]
    exact (reads value after).symm
  · exact leaves_bind_of_fails (fun value after gives => finishes ⟨value, after, gives⟩) next

theorem keeps_pure (value : α) : (pure value : Action α).Keeps Eq before := rfl

theorem keeps_throw (cause : Failure) : (throw cause : Action α).Keeps Eq before := rfl

theorem keeps_log (level : Level) (origin : Origin) (message : String) :
    (log level origin message).Keeps Eq before := rfl

theorem keeps_printLine (line : String) : (printLine line).Keeps Eq before := rfl

theorem keeps_get : (get : Action Session).Keeps Eq before := rfl

theorem keeps_compute (result : Except Fault α) : (compute result).Keeps Eq before := by
  cases result with
  | ok value => rfl
  | error cause => rfl

theorem keeps_reading (read : FileTree → Except FileFault α) :
    (reading read).Keeps Eq before := by
  refine keeps_bind keeps_get fun session _ _ => ?_
  cases read session.files with
  | ok value => rfl
  | error cause => rfl

theorem leaves_attempting (attempt : Attempt) (action : Action α) :
    (attempting attempt action).leaves before = action.leaves before := by
  unfold leaves attempting
  rw [ExceptT.run_tryCatch, StateT.run_bind]
  rcases action.run.run before with ⟨_ | _, _⟩
  · rfl
  · rfl

theorem keeps_attempting_iff {attempt : Attempt} {action : Action α} :
    (attempting attempt action).Keeps relation before ↔ action.Keeps relation before := by
  rw [Keeps, leaves_attempting, Keeps]

/-- A change that fails changes nothing. -/
theorem keeps_changing [Std.Refl relation] {change : FileTree → Except FileFault FileTree}
    (changed : ∀ files, change before.files = .ok files → relation before.files files) :
    (changing change).Keeps relation before := by
  unfold changing
  by_cases succeeds : ∃ files, change before.files = .ok files
  · obtain ⟨files, made⟩ := succeeds
    have found : (reading change).Gives before files before := gives_reading_iff.mpr ⟨made, rfl⟩
    rw [Keeps, found.leaves_bind]
    exact changed files made
  · rw [Keeps, leaves_bind_of_fails]
    · exact keeps_of_eq (keeps_reading change)
    · exact fun files _ gives => succeeds ⟨files, (gives_reading_iff.mp gives).1⟩

theorem keeps_ensureDirectory {path : String}
    (made : relation before.files (before.files.ensureDirectory path).1) :
    (ensureDirectory path).Keeps relation before := by
  have leaves_eq : (ensureDirectory path).leaves before =
      (before.files.ensureDirectory path).1 := by
    have found : (get : Action Session).Gives before before before := rfl
    rw [ensureDirectory, found.leaves_bind]
    rcases before.files.ensureDirectory path with ⟨files, _ | cause⟩
    · rfl
    · rfl
  rw [Keeps, leaves_eq]
  exact made

end Keeps

end InvertibleNet.Action
