/-
# The arguments of a command

What the arguments of a command spell, as a relation that says nothing of open options: one
option after the other, each with its value. The reading finds exactly the spelled options,
whatever their number and order, and accepts them if none is given twice and each accepts its
value. From this follows which architecture reaches the work: the one of the one option that
names an architecture, in the commands that ask for exactly one of three as in the one that
excludes the second of two and requires the first without it.
-/

import Mathlib.Data.List.Nodup
import Mathlib.Data.List.TakeWhile
import InvertibleNet.Command.Arguments
import InvertibleNet.Proofs.Outcome

namespace InvertibleNet

open Outcome

/-! ## The form of an argument -/

namespace Argument

/-- Whether a text can be the value of the option in front of it: it begins with no dash, or it
is one dash alone. -/
def IsWord (text : String) : Prop :=
  text.toList.head? ≠ some '-' ∨ text = "-"

/-- What is attached to a name, behind an equals sign. -/
def attachment : Option String → String
  | none => ""
  | some value => "=" ++ value

/-- A long argument is a name without an equals sign, with what is attached to it. -/
theorem ofLong_eq_iff {text : List Char} {name : String} {attached : Option String} :
    ofLong text = .long name attached ↔
      '=' ∉ name.toList ∧ text = (name ++ attachment attached).toList := by
  constructor
  · intro reads
    have whole := @List.takeWhile_append_dropWhile _ (fun letter => decide (letter ≠ '=')) text
    have bare : '=' ∉ text.takeWhile fun letter => decide (letter ≠ '=') := fun member => by
      simpa using List.mem_takeWhile_imp member
    unfold ofLong at reads
    split at reads
    case h_1 ends =>
      cases reads
      rw [ends, List.append_nil] at whole
      exact ⟨by rwa [String.toList_ofList], by
        rw [attachment, String.append_empty, String.toList_ofList, whole]⟩
    case h_2 letter value goes =>
      cases reads
      have stop := List.head?_dropWhile_not (fun letter => decide (letter ≠ '=')) text
      rw [goes] at stop whole
      have equals : letter = '=' := by simpa using stop
      subst equals
      exact ⟨by rwa [String.toList_ofList], by
        simpa [attachment] using whole.symm⟩
  · rintro ⟨bare, rfl⟩
    have all : ∀ letter ∈ name.toList, decide (letter ≠ '=') = true :=
      fun letter member => decide_eq_true fun equals => bare (equals ▸ member)
    rw [String.toList_append, ofLong, List.takeWhile_append_of_pos all,
      List.dropWhile_append_of_pos all]
    cases attached <;> simp [attachment]

/-- The form of a text, by its first letters. -/
theorem ofText_cases (text : String) :
    (text = "--" ∧ ofText text = .terminator) ∨
      (∃ rest, rest ≠ [] ∧ text.toList = '-' :: '-' :: rest ∧ ofText text = ofLong rest) ∨
      (∃ letter rest, letter ≠ '-' ∧ text.toList = '-' :: letter :: rest ∧
        ofText text = .short letter) ∨
      IsWord text ∧ ofText text = .plain text := by
  unfold ofText
  split
  case h_1 here => exact .inl ⟨String.toList_inj.mp here, rfl⟩
  case h_2 rest more here =>
    exact .inr (.inl ⟨rest, more, here, rfl⟩)
  case h_3 letter rest _ long here =>
    exact .inr (.inr (.inl ⟨letter, rest, long, here, rfl⟩))
  case h_4 _ _ short =>
    refine .inr (.inr (.inr ⟨?_, rfl⟩))
    cases letters : text.toList with
    | nil => exact .inl (by rw [letters]; exact nofun)
    | cons first rest =>
        by_cases dash : first = '-'
        · cases rest with
          | nil => exact .inr (String.toList_inj.mp (by rw [letters, dash]; rfl))
          | cons second rest => exact absurd (by rw [letters, dash]) (short second rest)
        · exact .inl (by rw [letters]; exact fun head => dash (Option.some.inj head))

theorem exists_ofLong (text : List Char) : ∃ name attached, ofLong text = .long name attached := by
  unfold ofLong
  split
  · exact ⟨_, none, rfl⟩
  · exact ⟨_, some _, rfl⟩

theorem not_isWord_of_dashes {text : String} {rest : List Char}
    (dashes : text.toList = '-' :: '-' :: rest) : ¬ IsWord text := by
  rintro (head | rfl)
  · exact head (by rw [dashes]; rfl)
  · cases dashes

theorem ofText_eq_terminator_iff {text : String} : ofText text = .terminator ↔ text = "--" := by
  rcases ofText_cases text with ⟨here, form⟩ | ⟨rest, more, here, form⟩ |
    ⟨letter, rest, single, here, form⟩ | ⟨word, form⟩
  · exact iff_of_true form here
  · obtain ⟨name, attached, long⟩ := exists_ofLong rest
    refine iff_of_false (by rw [form, long]; nofun) fun dashes => more ?_
    rw [dashes] at here
    exact (List.cons.inj (List.cons.inj here).2).2.symm
  · refine iff_of_false (by rw [form]; nofun) fun dashes => single ?_
    rw [dashes] at here
    exact (List.cons.inj (List.cons.inj here).2).1.symm
  · refine iff_of_false (by rw [form]; nofun) fun dashes => ?_
    exact @not_isWord_of_dashes _ [] (congrArg String.toList dashes) word

/-- A long argument is two dashes and a name with what is attached to it, which are not both
empty. -/
theorem ofText_eq_long_iff {text name : String} {attached : Option String} :
    ofText text = .long name attached ↔
      text ≠ "--" ∧ '=' ∉ name.toList ∧ text = "--" ++ (name ++ attachment attached) := by
  have spelled : text = "--" ++ (name ++ attachment attached) ↔
      text.toList = '-' :: '-' :: (name ++ attachment attached).toList := by
    rw [← String.toList_inj, String.toList_append]
    rfl
  rw [spelled]
  rcases ofText_cases text with ⟨here, form⟩ | ⟨rest, more, here, form⟩ |
    ⟨letter, rest, single, here, form⟩ | ⟨word, form⟩
  · exact iff_of_false (by rw [form]; nofun) fun long => long.1 here
  · have some : text ≠ "--" := fun dashes => by
      rw [dashes] at here
      exact more (List.cons.inj (List.cons.inj here).2).2.symm
    rw [form, ofLong_eq_iff, here]
    simp only [ne_eq, some, not_false_eq_true, true_and, List.cons.injEq]
  · refine iff_of_false (by rw [form]; nofun) fun ⟨_, _, same⟩ => single ?_
    rw [here] at same
    exact (List.cons.inj (List.cons.inj same).2).1
  · exact iff_of_false (by rw [form]; nofun) fun ⟨_, _, same⟩ => not_isWord_of_dashes same word

theorem ofText_eq_plain_iff {text word : String} :
    ofText text = .plain word ↔ IsWord text ∧ text = word := by
  rcases ofText_cases text with ⟨here, form⟩ | ⟨rest, _, here, form⟩ |
    ⟨letter, rest, single, here, form⟩ | ⟨isWord, form⟩
  · exact iff_of_false (by rw [form]; nofun) fun plain =>
      @not_isWord_of_dashes _ [] (congrArg String.toList here) plain.1
  · obtain ⟨name, attached, long⟩ := exists_ofLong rest
    exact iff_of_false (by rw [form, long]; nofun) fun plain =>
      not_isWord_of_dashes here plain.1
  · refine iff_of_false (by rw [form]; nofun) ?_
    rintro ⟨head | rfl, -⟩
    · exact head (by rw [here]; rfl)
    · cases here
  · rw [form, and_iff_right isWord]
    exact Argument.plain.injEq text word ▸ Iff.rfl

end Argument

/-! ## What arguments spell -/

theorem Flag.equals_not_mem_name (flag : Flag) : '=' ∉ flag.name.toList := by
  cases flag <;> decide

theorem Flag.ofText_name (flag : Flag) (attached : Option String) :
    Argument.ofText ("--" ++ (flag.name ++ Argument.attachment attached)) =
      .long flag.name attached := by
  refine Argument.ofText_eq_long_iff.mpr ⟨?_, flag.equals_not_mem_name, rfl⟩
  intro short
  have letters := congrArg String.length short
  simp only [String.length_append] at letters
  have some : 0 < flag.name.length := by cases flag <;> decide
  have dashes : "--".length = 2 := rfl
  omega

theorem Flag.name_injective {flag other : Flag} (same : flag.name = other.name) : flag = other := by
  cases flag <;> cases other <;> first | rfl | exact absurd same (by decide)

/-- The arguments that give some options, one after the other and each with its value. The value
of an option is attached to its name, or it is the argument behind it and a word. A terminator
may stand at the end. -/
inductive Spells (flags : List Flag) : List String → Settings → Prop
  | done : Spells flags [] []
  | terminated : Spells flags ["--"] []
  | attached {flag : Flag} (known : flag ∈ flags) (value : String) {later : List String}
      {given : Settings} (rest : Spells flags later given) :
      Spells flags (("--" ++ (flag.name ++ Argument.attachment (some value))) :: later)
        ((flag, value) :: given)
  | behind {flag : Flag} (known : flag ∈ flags) {value : String} (word : Argument.IsWord value)
      {later : List String} {given : Settings} (rest : Spells flags later given) :
      Spells flags (("--" ++ (flag.name ++ Argument.attachment none)) :: value :: later)
        ((flag, value) :: given)

namespace Spells

variable {flags : List Flag}

theorem nil_iff {given : Settings} : Spells flags [] given ↔ given = [] := by
  constructor
  · intro spells
    cases spells
    rfl
  · rintro rfl
    exact done

/-- What some arguments spell, by the form of the first one. -/
theorem cons_iff {argument : String} {later : List String} {given : Settings} :
    Spells flags (argument :: later) given ↔
      match Argument.ofText argument with
      | .terminator => later = [] ∧ given = []
      | .long name (some value) => ∃ flag ∈ flags, flag.name = name ∧
          ∃ others, given = (flag, value) :: others ∧ Spells flags later others
      | .long name none => ∃ flag ∈ flags, flag.name = name ∧
          ∃ value rest others, later = value :: rest ∧ Argument.IsWord value ∧
            given = (flag, value) :: others ∧ Spells flags rest others
      | .short _ => False
      | .plain _ => False := by
  constructor
  · intro spells
    cases spells with
    | terminated => exact ⟨rfl, rfl⟩
    | attached known value rest =>
        rw [Flag.ofText_name]
        exact ⟨_, known, rfl, _, rfl, rest⟩
    | behind known word rest =>
        rw [Flag.ofText_name]
        exact ⟨_, known, rfl, _, _, _, rfl, word, rfl, rest⟩
  · intro reads
    cases form : Argument.ofText argument with
    | terminator =>
        rw [form] at reads
        obtain ⟨rfl, rfl⟩ := reads
        rw [Argument.ofText_eq_terminator_iff.mp form]
        exact terminated
    | long name attached =>
        rw [form] at reads
        rw [(Argument.ofText_eq_long_iff.mp form).2.2]
        cases attached with
        | none =>
            obtain ⟨flag, known, rfl, value, rest, others, rfl, word, rfl, spells⟩ := reads
            exact behind known word spells
        | some value =>
            obtain ⟨flag, known, rfl, others, rfl, spells⟩ := reads
            exact attached known value spells
    | short letter =>
        rw [form] at reads
        exact reads.elim
    | plain text =>
        rw [form] at reads
        exact reads.elim

/-- An option is spelled with its value attached, or with a word behind it. -/
theorem option_iff {flag : Flag} {value : String} {arguments later : List String}
    (known : flag ∈ flags)
    (spelling : arguments = ("--" ++ (flag.name ++ Argument.attachment (some value))) :: later ∨
      arguments = ("--" ++ (flag.name ++ Argument.attachment none)) :: value :: later ∧
        Argument.IsWord value) {given : Settings} :
    Spells flags arguments given ↔
      ∃ others, given = (flag, value) :: others ∧ Spells flags later others := by
  rcases spelling with rfl | ⟨rfl, word⟩
  · rw [cons_iff, Flag.ofText_name]
    constructor
    · rintro ⟨other, -, name, rest⟩
      rwa [Flag.name_injective name] at rest
    · exact fun rest => ⟨flag, known, rfl, rest⟩
  · rw [cons_iff, Flag.ofText_name]
    constructor
    · rintro ⟨other, -, name, _, _, others, same, -, rfl, rest⟩
      obtain ⟨rfl, rfl⟩ := List.cons.inj same
      exact ⟨others, by rw [Flag.name_injective name], rest⟩
    · rintro ⟨others, rfl, rest⟩
      exact ⟨flag, known, rfl, value, later, others, rfl, word, rfl, rest⟩

/-- Arguments spell one list of options at most. -/
theorem unique {arguments : List String} {given other : Settings}
    (spells : Spells flags arguments given) (again : Spells flags arguments other) :
    given = other := by
  induction spells generalizing other with
  | done => exact (nil_iff.mp again).symm
  | terminated => exact (cons_iff.mp again).2.symm
  | attached known value _ ih =>
      obtain ⟨others, rfl, rest⟩ := (option_iff known (.inl rfl)).mp again
      rw [ih rest]
  | behind known word _ ih =>
      obtain ⟨others, rfl, rest⟩ := (option_iff known (.inr ⟨rfl, word⟩)).mp again
      rw [ih rest]

end Spells

/-! ## Reading -/

/-- Add some options, each with its value. -/
def Settings.addAll (settings given : Settings) : Except ArgumentFault Settings :=
  given.foldlM (fun settings entry => settings.add entry.1 (some entry.2)) settings

/-- Whether what some arguments spell can be added to some settings, and gives others. -/
def Settings.Gains (flags : List Flag) (settings : Settings) (arguments : List String)
    (result : Settings) : Prop :=
  ∃ given, Spells flags arguments given ∧ settings.addAll given = .ok result

/-- An open option of a command, with a word as its value if there is one. -/
def OpenOption.Fits (flags : List Flag) (pending : OpenOption) : Prop :=
  pending.flag ∈ flags ∧ ∀ value ∈ pending.value?, Argument.IsWord value

/-- The arguments that have led to an open option. -/
def OpenOption.words (pending : OpenOption) : List String :=
  ("--" ++ (pending.flag.name ++ Argument.attachment none)) :: pending.value?.toList

section Reading

variable {flags : List Flag} {settings result : Settings} {pending : Option OpenOption}
  {arguments : List String}

/-- One spelled option is added first. -/
theorem gains_option {flag : Flag} {value : String} {later : List String} (known : flag ∈ flags)
    (spelling : arguments = ("--" ++ (flag.name ++ Argument.attachment (some value))) :: later ∨
      arguments = ("--" ++ (flag.name ++ Argument.attachment none)) :: value :: later ∧
        Argument.IsWord value) :
    settings.Gains flags arguments result ↔
      ∃ more, settings.add flag (some value) = .ok more ∧
        Settings.Gains flags more later result := by
  simp only [Settings.Gains, Spells.option_iff known spelling]
  constructor
  · rintro ⟨_, ⟨others, rfl, rest⟩, adds⟩
    obtain ⟨more, first, then_⟩ := bind_eq_ok_iff.mp adds
    exact ⟨more, first, others, rest, then_⟩
  · rintro ⟨more, first, others, rest, behind⟩
    exact ⟨_, ⟨others, rfl, rest⟩, bind_eq_ok_iff.mpr ⟨more, first, behind⟩⟩

/-- An argument that is no word settles the option in front of it. -/
theorem gains_behind (fits : ∀ option ∈ pending, option.Fits flags)
    (stops : ∀ argument ∈ arguments.head?, ¬ Argument.IsWord argument) :
    settings.Gains flags (pending.elim [] OpenOption.words ++ arguments) result ↔
      ∃ settled, settings.settle pending = .ok settled ∧
        Settings.Gains flags settled arguments result := by
  rcases pending with - | ⟨flag, - | value⟩
  · exact ⟨fun gains => ⟨settings, rfl, gains⟩, fun ⟨_, same, gains⟩ => Except.ok.inj same ▸ gains⟩
  · refine iff_of_false ?_ (by rintro ⟨_, missing, -⟩; cases missing)
    rintro ⟨given, spells, -⟩
    rw [Option.elim, OpenOption.words, List.cons_append, Spells.cons_iff, Flag.ofText_name]
      at spells
    obtain ⟨-, -, -, value, rest, -, rfl, word, -⟩ := spells
    exact stops value rfl word
  · obtain ⟨known, word⟩ := fits _ rfl
    exact gains_option known (.inr ⟨rfl, word value rfl⟩)

theorem find?_name_eq_some_iff {name : String} {flag : Flag} :
    (flags.find? fun flag => flag.name == name) = some flag ↔ flag ∈ flags ∧ flag.name = name := by
  have named {other : Flag} (found : (flags.find? fun flag => flag.name == name) = some other) :
      other.name = name := by simpa using List.find?_some found
  constructor
  · exact fun found => ⟨List.mem_of_find?_eq_some found, named found⟩
  · rintro ⟨known, same⟩
    cases found : flags.find? fun flag => flag.name == name with
    | none => exact absurd (beq_iff_eq.mpr same) (List.find?_eq_none.mp found flag known)
    | some other => rw [Flag.name_injective ((named found).trans same.symm)]

theorem gains_nil : settings.Gains flags [] result ↔ settings = result := by
  simp [Settings.Gains, Spells.nil_iff, Settings.addAll, pure, Except.pure]

/-- A reading that goes on with the settled open option adds what the arguments behind it
spell. -/
theorem settled_eq_ok_iff {next : Settings → Except ArgumentFault Settings}
    (fits : ∀ option ∈ pending, option.Fits flags) {argument : String} {rest : List String}
    (stops : ¬ Argument.IsWord argument)
    (goes : ∀ settled : Settings,
      next settled = .ok result ↔ settled.Gains flags (argument :: rest) result) :
    (settings.settle pending >>= next) = .ok result ↔
      settings.Gains flags (pending.elim [] OpenOption.words ++ argument :: rest) result := by
  rw [gains_behind fits (by simpa using stops), bind_eq_ok_iff]
  exact exists_congr fun settled => and_congr_right fun _ => goes settled

/-- What cannot be spelled is not added, whatever option is open in front of it. -/
theorem not_gains (fits : ∀ option ∈ pending, option.Fits flags) {argument : String}
    {rest : List String} (stops : ¬ Argument.IsWord argument)
    (alien : ∀ given, ¬ Spells flags (argument :: rest) given) :
    ¬ settings.Gains flags (pending.elim [] OpenOption.words ++ argument :: rest) result := by
  rw [gains_behind fits (by simpa using stops)]
  rintro ⟨settled, -, given, spells, -⟩
  exact alien given spells

/-- A word is the value of the option in front of it. -/
theorem readSettings_word {word : String} (isWord : Argument.IsWord word) {rest : List String}
    (fits : ∀ option ∈ pending, option.Fits flags)
    (ih : ∀ {pending : Option OpenOption}, (∀ option ∈ pending, option.Fits flags) →
      (readSettings flags settings pending rest = .ok result ↔
        settings.Gains flags (pending.elim [] OpenOption.words ++ rest) result)) :
    readSettings flags settings pending (word :: rest) = .ok result ↔
      settings.Gains flags (pending.elim [] OpenOption.words ++ word :: rest) result := by
  have form := Argument.ofText_eq_plain_iff.mpr ⟨isWord, rfl⟩
  have alone (given : Settings) : ¬ Spells flags (word :: rest) given := fun spells => by
    rwa [Spells.cons_iff, form] at spells
  simp only [readSettings, form]
  rcases pending with - | ⟨flag, - | value⟩
  · exact iff_of_false nofun fun ⟨given, spells, _⟩ => alone given spells
  · refine @ih (some ⟨flag, some word⟩) ?_
    rintro option ⟨⟩
    exact ⟨(fits _ rfl).1, by rintro value ⟨⟩; exact isWord⟩
  · obtain ⟨known, before⟩ := fits _ rfl
    refine iff_of_false nofun ?_
    rintro ⟨given, spells, -⟩
    obtain ⟨others, -, spells⟩ :=
      (Spells.option_iff known (.inr ⟨rfl, before value rfl⟩)).mp spells
    exact alone others spells

/-- A reading that settles the open option and then fails is refused. -/
theorem settled_ne_ok {fault : ArgumentFault} :
    (do
      let _ ← settings.settle pending
      throw fault : Except ArgumentFault Settings) ≠ .ok result := by
  intro reads
  obtain ⟨_, _, fails⟩ := bind_eq_ok_iff.mp reads
  cases fails

/-- A known option settles the one in front of it, and is open or added itself. -/
theorem readSettings_option {argument : String} {flag : Flag} {attached : Option String}
    (form : Argument.ofText argument = .long flag.name attached) (known : flag ∈ flags)
    {rest : List String} (fits : ∀ option ∈ pending, option.Fits flags)
    (ih : ∀ {settings : Settings} {pending : Option OpenOption},
      (∀ option ∈ pending, option.Fits flags) →
        (readSettings flags settings pending rest = .ok result ↔
          settings.Gains flags (pending.elim [] OpenOption.words ++ rest) result)) :
    readSettings flags settings pending (argument :: rest) = .ok result ↔
      settings.Gains flags (pending.elim [] OpenOption.words ++ argument :: rest) result := by
  have spelled := (Argument.ofText_eq_long_iff.mp form).2.2
  have stops : ¬ Argument.IsWord argument := fun word => by
    cases (Argument.ofText_eq_plain_iff.mpr ⟨word, rfl⟩).symm.trans form
  simp only [readSettings, form, find?_name_eq_some_iff.mpr ⟨known, rfl⟩]
  refine settled_eq_ok_iff fits stops fun settled => ?_
  cases attached with
  | none =>
      rw [spelled]
      refine @ih settled (some ⟨flag, none⟩) ?_
      rintro option ⟨⟩
      exact ⟨known, nofun⟩
  | some value =>
      rw [gains_option known (.inl (by rw [spelled])), bind_eq_ok_iff]
      exact exists_congr fun more => and_congr_right fun _ => ih (by simp)

/-- An argument of no known option is refused. -/
theorem readSettings_unknown {argument name : String} {attached : Option String}
    (form : Argument.ofText argument = .long name attached)
    (unknown : (flags.find? fun flag => flag.name == name) = none) (rest : List String) :
    readSettings flags settings pending (argument :: rest) ≠ .ok result ∧
      ∀ given, ¬ Spells flags (argument :: rest) given := by
  constructor
  · simp only [readSettings, form, unknown]
    split
    · nofun
    · split
      · nofun
      · exact settled_ne_ok
  · intro given spells
    have named : ∃ flag ∈ flags, flag.name = name := by
      rw [Spells.cons_iff, form] at spells
      cases attached with
      | none => exact spells.imp fun flag here => ⟨here.1, here.2.1⟩
      | some value => exact spells.imp fun flag here => ⟨here.1, here.2.1⟩
    obtain ⟨flag, here⟩ := named
    cases (find?_name_eq_some_iff.mpr here).symm.trans unknown

/-- The reading adds what the open option and the arguments behind it spell, and refuses
everything else. -/
theorem readSettings_eq_ok_iff (fits : ∀ option ∈ pending, option.Fits flags) :
    readSettings flags settings pending arguments = .ok result ↔
      settings.Gains flags (pending.elim [] OpenOption.words ++ arguments) result := by
  induction arguments generalizing settings pending with
  | nil =>
      rw [readSettings, gains_behind fits (by simp)]
      simp only [gains_nil, exists_eq_right]
  | cons argument rest ih =>
      by_cases word : Argument.IsWord argument
      · exact readSettings_word word fits ih
      cases form : Argument.ofText argument with
      | plain text => exact absurd (Argument.ofText_eq_plain_iff.mp form).1 word
      | terminator =>
          simp only [readSettings, form]
          cases rest with
          | nil =>
              have ended (settled : Settings) : settled.Gains flags [argument] result ↔
                  settled = result := by
                simp [Settings.Gains, Spells.cons_iff, form, Settings.addAll, pure, Except.pure]
              rw [gains_behind fits (by simpa using word)]
              simp only [List.isEmpty_nil, if_true, ended, exists_eq_right]
          | cons next rest =>
              refine iff_of_false nofun (not_gains fits word fun given spells => ?_)
              rw [Spells.cons_iff, form] at spells
              cases spells.1
      | long name attached =>
          cases found : flags.find? fun flag => flag.name == name with
          | some flag =>
              obtain ⟨known, rfl⟩ := find?_name_eq_some_iff.mp found
              exact readSettings_option form known fits ih
          | none =>
              obtain ⟨refused, alien⟩ := readSettings_unknown form found rest
              exact iff_of_false refused (not_gains fits word alien)
      | short letter =>
          simp only [readSettings, form]
          refine iff_of_false ?_ (not_gains fits word fun given spells => ?_)
          · split
            · exact settled_ne_ok
            · nofun
          · rwa [Spells.cons_iff, form] at spells

end Reading

/-! ## Accepted settings -/

/-- Whether no option is given twice and every one accepts its value. -/
structure Settings.IsAccepted (given : Settings) : Prop where
  once : (given.map Prod.fst).Nodup
  values : ∀ entry ∈ given, entry.1.valueFault? entry.2 = none

namespace Settings

variable {settings given result : Settings} {flag : Flag} {value : String}

theorem has_eq_true_iff : settings.has flag = true ↔ flag ∈ settings.map Prod.fst := by
  rw [has, value?, List.lookup_isSome_iff, List.mem_map]
  exact exists_congr fun entry => and_congr_right fun _ => by rw [beq_iff_eq, eq_comm]

theorem add_eq_ok_iff :
    settings.add flag (some value) = .ok result ↔
      settings.has flag = false ∧ flag.valueFault? value = none ∧
        result = settings ++ [(flag, value)] := by
  rw [add]
  cases settings.has flag with
  | true => simp
  | false =>
      cases flag.valueFault? value with
      | some fault => simp
      | none => simp [eq_comm]

theorem isAccepted_append_iff {entry : Flag × String} :
    (settings ++ [entry]).IsAccepted ↔
      settings.IsAccepted ∧ settings.has entry.1 = false ∧ entry.1.valueFault? entry.2 = none := by
  have fresh : entry.1 ∉ settings.map Prod.fst ↔ settings.has entry.1 = false := by
    rw [← has_eq_true_iff, Bool.not_eq_true]
  constructor
  · rintro ⟨once, values⟩
    rw [List.map_append, List.map_singleton, ← List.concat_eq_append, List.nodup_concat] at once
    rw [List.forall_mem_append, List.forall_mem_singleton] at values
    exact ⟨⟨once.2, values.1⟩, fresh.mp once.1, values.2⟩
  · rintro ⟨⟨once, values⟩, new, accepts⟩
    constructor
    · rw [List.map_append, List.map_singleton, ← List.concat_eq_append, List.nodup_concat]
      exact ⟨fresh.mpr new, once⟩
    · rw [List.forall_mem_append, List.forall_mem_singleton]
      exact ⟨values, accepts⟩

theorem IsAccepted.front (accepted : (settings ++ given).IsAccepted) : settings.IsAccepted where
  once := by
    have once := accepted.once
    rw [List.map_append] at once
    exact once.of_append_left
  values entry member := accepted.values entry (List.mem_append_left given member)

/-- Options are added one after the other if each is new and accepts its value. -/
theorem addAll_eq_ok_iff (before : settings.IsAccepted) :
    settings.addAll given = .ok result ↔
      (settings ++ given).IsAccepted ∧ result = settings ++ given := by
  induction given generalizing settings with
  | nil =>
      rw [List.append_nil, and_iff_right before]
      exact ⟨fun same => (Except.ok.inj same).symm, fun same => congrArg Except.ok same.symm⟩
  | cons entry given ih =>
      have moved : settings ++ entry :: given = settings ++ [entry] ++ given := by simp
      rw [addAll, List.foldlM_cons, bind_eq_ok_iff, moved]
      constructor
      · rintro ⟨more, adds, rest⟩
        obtain ⟨new, accepts, rfl⟩ := add_eq_ok_iff.mp adds
        exact (ih (isAccepted_append_iff.mpr ⟨before, new, accepts⟩)).mp rest
      · intro accepted
        have first := accepted.1.front
        obtain ⟨-, new, accepts⟩ := isAccepted_append_iff.mp first
        exact ⟨_, add_eq_ok_iff.mpr ⟨new, accepts, rfl⟩, (ih first).mpr accepted⟩

end Settings

/-- The arguments of a command are accepted as the options that they spell. -/
theorem readSettings_iff {flags : List Flag} {arguments : List String} {given : Settings} :
    readSettings flags [] none arguments = .ok given ↔
      Spells flags arguments given ∧ given.IsAccepted := by
  rw [readSettings_eq_ok_iff (by simp)]
  have empty : Settings.IsAccepted [] := ⟨List.nodup_nil, nofun⟩
  simp only [Settings.Gains, Option.elim, List.nil_append, Settings.addAll_eq_ok_iff empty]
  constructor
  · rintro ⟨given, spells, accepted, rfl⟩
    exact ⟨spells, accepted⟩
  · exact fun ⟨spells, accepted⟩ => ⟨given, spells, accepted, rfl⟩

/-! ## The options that name an architecture -/

/-- What an option names as the source of an architecture, if it names one. -/
def Flag.source? : Flag → String → Option Source
  | preset, name => some (.preset name)
  | config, path => some (.configFile path)
  | checkpointDir, directory => some (.checkpoint directory)
  | _, _ => none

namespace Settings

variable {settings : Settings} {flag : Flag} {value : String} {source : Source}

/-- The given ones of some options. -/
def among (settings : Settings) (flags : List Flag) : Settings :=
  settings.filter fun entry => flags.contains entry.1

theorem mem_among_iff {flags : List Flag} {entry : Flag × String} :
    entry ∈ settings.among flags ↔ entry ∈ settings ∧ entry.1 ∈ flags := by
  rw [among, List.mem_filter, List.contains_iff_mem]

/-- Without a second value for any option, a value is found exactly if it was given. -/
theorem IsAccepted.value?_eq_some_iff (accepted : settings.IsAccepted) :
    settings.value? flag = some value ↔ (flag, value) ∈ settings := by
  have found {value : String} (here : settings.value? flag = some value) :
      (flag, value) ∈ settings := by
    obtain ⟨front, behind, rfl, -⟩ := List.lookup_eq_some_iff.mp here
    exact List.mem_append_right front List.mem_cons_self
  refine ⟨found, fun member => ?_⟩
  have given : settings.has flag = true := has_eq_true_iff.mpr (List.mem_map_of_mem member)
  obtain ⟨other, here⟩ := Option.isSome_iff_exists.mp given
  have same := List.inj_on_of_nodup_map accepted.once (found here) member rfl
  rw [here, (Prod.mk.inj same).2]

/-- The given ones of some options are as many as those of them that are there. -/
theorem IsAccepted.length_among (accepted : settings.IsAccepted) {flags : List Flag}
    (distinct : flags.Nodup) : (settings.among flags).length = flags.countP settings.has := by
  have keys : ((settings.among flags).map Prod.fst).Perm (flags.filter settings.has) := by
    refine (List.perm_ext_iff_of_nodup ?_ (distinct.filter _)).mpr fun flag => ?_
    · exact accepted.once.sublist (List.filter_sublist.map Prod.fst)
    · rw [List.mem_filter, has_eq_true_iff, List.mem_map, List.mem_map]
      constructor
      · rintro ⟨entry, member, rfl⟩
        obtain ⟨member, known⟩ := mem_among_iff.mp member
        exact ⟨known, entry, member, rfl⟩
      · rintro ⟨known, entry, member, rfl⟩
        exact ⟨entry, mem_among_iff.mpr ⟨member, known⟩, rfl⟩
  rw [← List.length_map Prod.fst, keys.length_eq, List.countP_eq_length_filter]

/-- One of some options was given alone: it has its value and no other one has any. -/
theorem IsAccepted.values_of_among (accepted : settings.IsAccepted) {flags : List Flag}
    (alone : settings.among flags = [(flag, value)]) :
    flag ∈ flags ∧ settings.value? flag = some value ∧
      ∀ other ∈ flags, other ≠ flag → settings.value? other = none := by
  have member : (flag, value) ∈ settings.among flags := by
    rw [alone]
    exact List.mem_singleton_self _
  obtain ⟨given, known⟩ := mem_among_iff.mp member
  refine ⟨known, accepted.value?_eq_some_iff.mpr given, fun other among differs => ?_⟩
  rw [Option.eq_none_iff_forall_ne_some]
  intro second here
  have second : (other, second) ∈ settings.among flags :=
    mem_among_iff.mpr ⟨accepted.value?_eq_some_iff.mp here, among⟩
  rw [alone, List.mem_singleton] at second
  exact differs (Prod.mk.inj second).1

/-- The rule that one of some options has to be there is kept if one of them was given, broken
off for a missing one if none was, and for a conflict if several were. -/
theorem IsAccepted.check_exactlyOne (accepted : settings.IsAccepted) {flags : List Flag}
    (distinct : flags.Nodup) :
    settings.check [.exactlyOne flags] =
      match (settings.among flags).length with
      | 0 => .error .missingArgument
      | 1 => .ok ()
      | _ => .error .conflict := by
  rw [accepted.length_among distinct, check, List.findSome?_cons, Rule.fault?]
  rcases flags.countP settings.has with - | - | count <;> rfl

/-- To exclude the second of two options, and to require the first without it, is to ask for
exactly one. -/
theorem check_excludes_requiredUnless (flag other : Flag) :
    settings.check [.excludes flag other, .requiredUnless flag other] =
      settings.check [.exactlyOne [flag, other]] := by
  cases first : settings.has flag <;> cases second : settings.has other <;>
    simp [check, Rule.fault?, first, second]

/-- The source of the settings is that of the one source option among them. -/
theorem IsAccepted.source_of_among (accepted : settings.IsAccepted)
    (alone : settings.among Command.sourceFlags = [(flag, value)]) :
    flag.source? value = some settings.source := by
  obtain ⟨known, here, others⟩ := accepted.values_of_among alone
  simp only [Command.sourceFlags, List.mem_cons, List.not_mem_nil, or_false,
    forall_eq_or_imp, forall_eq] at known others
  rcases known with rfl | rfl | rfl <;> simp_all [source, Source.ofOptions, Flag.source?]

/-- The source of a new checkpoint is that of the one option that names an architecture. -/
theorem IsAccepted.newSource_of_among (accepted : settings.IsAccepted)
    (alone : settings.among [.preset, .config] = [(flag, value)]) :
    flag.source? value = some settings.newSource := by
  obtain ⟨known, here, others⟩ := accepted.values_of_among alone
  simp only [List.mem_cons, List.not_mem_nil, or_false, forall_eq_or_imp, forall_eq]
    at known others
  rcases known with rfl | rfl <;> simp_all [newSource, Source.ofOptions, Flag.source?]

end Settings

/-! ## The commands -/

namespace Command

/-- The name under which a command is given. -/
def name : Command → String
  | presets => "presets"
  | summary _ => "summary"
  | init _ _ _ => "init"
  | check _ _ => "check"

/-- The source of the architecture that a command works on. -/
def source? : Command → Option Source
  | presets => none
  | summary source => some source
  | init source _ _ => some source
  | check request _ => some request.source

/-- Every command is given by its name, with its options behind it. -/
theorem name_of_ofArguments {arguments : List String} {command : Command}
    (reads : ofArguments arguments = .ok command) :
    ∃ options, arguments = command.name :: options := by
  cases arguments with
  | nil => cases reads
  | cons argument options =>
      refine ⟨options, congrArg (· :: options) ?_⟩
      cases form : Argument.ofText argument with
      | terminator =>
          simp only [ofArguments, form] at reads
          split at reads <;> cases reads
      | long name attached =>
          simp only [ofArguments, form] at reads
          repeat' split at reads
          all_goals cases reads
      | short letter =>
          simp only [ofArguments, form] at reads
          repeat' split at reads
          all_goals cases reads
      | plain name =>
          obtain ⟨-, rfl⟩ := Argument.ofText_eq_plain_iff.mp form
          simp only [ofArguments, form] at reads
          have made {flags : List Flag} {rules : List Rule} {make : Settings → Command}
              (reads : (do
                let settings ← readSettings flags [] none options
                settings.check rules
                return make settings) = .ok command) : ∃ given, make given = command := by
            obtain ⟨given, -, behind⟩ := bind_eq_ok_iff.mp reads
            obtain ⟨_, -, made⟩ := bind_eq_ok_iff.mp behind
            exact ⟨given, Except.ok.inj made⟩
          split at reads
          case h_1 =>
            obtain ⟨given, -, made⟩ := bind_eq_ok_iff.mp reads
            cases made
            rfl
          case h_2 | h_3 | h_4 =>
            obtain ⟨given, rfl⟩ := made reads
            rfl
          case h_5 | h_6 => cases reads

/-- A command that works on an architecture: its name, its options, and those of them that name
the architecture. -/
structure Choice where
  name : String
  flags : List Flag
  sources : List Flag

/-- The commands that work on an architecture. -/
def choices : List Choice :=
  [⟨"summary", sourceFlags, sourceFlags⟩, ⟨"check", checkFlags, sourceFlags⟩,
    ⟨"init", initFlags, [.preset, .config]⟩]

namespace Choice

/-- Whether the arguments behind the name of a command are some options of the command, accepted,
and exactly one of those that name an architecture is among them and names a source. -/
structure Chooses (choice : Choice) (options : List String) (given : Settings)
    (source : Source) : Prop where
  spells : Spells choice.flags options given
  accepted : given.IsAccepted
  alone : ∃ flag value, given.among choice.sources = [(flag, value)] ∧
    flag.source? value = some source

/-- What a command takes as its arguments, and what it refuses. -/
structure IsExclusive (choice : Choice) : Prop where
  takes : ∀ arguments source,
    (∃ command, ofArguments arguments = .ok command ∧ command.name = choice.name ∧
        command.source? = some source) ↔
      ∃ options given, arguments = choice.name :: options ∧ choice.Chooses options given source
  refuses : ∀ options given, Spells choice.flags options given →
    (given.among choice.sources).length ≠ 1 →
      ∃ fault, ofArguments (choice.name :: options) = .error fault ∧
        (given.IsAccepted →
          fault = if given.among choice.sources = [] then .missingArgument else .conflict)

section Reading

variable {choice : Choice} {rules : List Rule} {options : List String} {given : Settings}
  {make : Settings → Command} {command : Command}

/-- The reading of a command whose rules ask for exactly one of some options. -/
theorem reading_eq_ok_iff (distinct : choice.sources.Nodup)
    (demand : ∀ settings : Settings,
      settings.check rules = settings.check [.exactlyOne choice.sources]) :
    (do
      let settings ← readSettings choice.flags [] none options
      settings.check rules
      return make settings) = .ok command ↔
      ∃ given, (Spells choice.flags options given ∧ given.IsAccepted) ∧
        (given.among choice.sources).length = 1 ∧ make given = command := by
  rw [bind_eq_ok_iff]
  refine exists_congr fun given => ?_
  rw [readSettings_iff]
  refine and_congr_right fun ⟨_, accepted⟩ => ?_
  rw [demand, accepted.check_exactlyOne distinct]
  rcases (given.among choice.sources).length with - | - | count
  · exact iff_of_false nofun nofun
  · exact ⟨fun made => ⟨rfl, Except.ok.inj made⟩, fun made => congrArg Except.ok made.2⟩
  · exact iff_of_false nofun (by omega)

/-- Such a command is refused with none of the options and with several of them. -/
theorem reading_refuses (distinct : choice.sources.Nodup)
    (demand : ∀ settings : Settings,
      settings.check rules = settings.check [.exactlyOne choice.sources])
    (spells : Spells choice.flags options given)
    (several : (given.among choice.sources).length ≠ 1) :
    ∃ fault, (do
      let settings ← readSettings choice.flags [] none options
      settings.check rules
      return make settings) = .error fault ∧
        (given.IsAccepted →
          fault = if given.among choice.sources = [] then .missingArgument else .conflict) := by
  cases reads : readSettings choice.flags [] none options with
  | error fault =>
      refine ⟨fault, rfl, fun accepted => ?_⟩
      rw [readSettings_iff.mpr ⟨spells, accepted⟩] at reads
      cases reads
  | ok read =>
      obtain ⟨again, accepted⟩ := readSettings_iff.mp reads
      obtain rfl := spells.unique again
      have refused := accepted.check_exactlyOne distinct
      simp only [bind, Except.bind, demand, refused]
      cases chosen : given.among choice.sources with
      | nil => exact ⟨_, rfl, fun _ => rfl⟩
      | cons first others =>
          cases others with
          | nil => exact absurd (by rw [chosen]; rfl) several
          | cons second others => exact ⟨_, rfl, fun _ => rfl⟩

/-- The chosen source is the one that a command reads off its settings. -/
theorem chooses_iff {source : Source} {chosen : Settings → Source}
    (names : ∀ {given flag value}, given.IsAccepted →
      given.among choice.sources = [(flag, value)] → flag.source? value = some (chosen given)) :
    choice.Chooses options given source ↔
      (Spells choice.flags options given ∧ given.IsAccepted) ∧
        (given.among choice.sources).length = 1 ∧ chosen given = source := by
  constructor
  · rintro ⟨spells, accepted, flag, value, alone, named⟩
    rw [names accepted alone] at named
    exact ⟨⟨spells, accepted⟩, by rw [alone]; rfl, Option.some.inj named⟩
  · rintro ⟨⟨spells, accepted⟩, one, rfl⟩
    obtain ⟨⟨flag, value⟩, alone⟩ := List.length_eq_one_iff.mp one
    exact ⟨spells, accepted, flag, value, alone, names accepted alone⟩

/-- A command is exclusive if it is made of settings that its rules allow, and reads its source
off the one option among them. -/
theorem isExclusive_of_reading {chosen : Settings → Source} (distinct : choice.sources.Nodup)
    (demand : ∀ settings : Settings,
      settings.check rules = settings.check [.exactlyOne choice.sources])
    (behind : ∀ options, ofArguments (choice.name :: options) = (do
      let settings ← readSettings choice.flags [] none options
      settings.check rules
      return make settings))
    (named : ∀ settings, (make settings).name = choice.name)
    (sourced : ∀ settings, (make settings).source? = some (chosen settings))
    (names : ∀ {given flag value}, Settings.IsAccepted given →
      given.among choice.sources = [(flag, value)] → flag.source? value = some (chosen given)) :
    choice.IsExclusive where
  takes arguments source := by
    simp only [chooses_iff names]
    constructor
    · rintro ⟨command, reads, same, about⟩
      obtain ⟨options, rfl⟩ := name_of_ofArguments reads
      rw [same, behind, reading_eq_ok_iff distinct demand] at reads
      obtain ⟨given, spells, one, rfl⟩ := reads
      rw [sourced] at about
      exact ⟨options, given, by rw [same], spells, one, Option.some.inj about⟩
    · rintro ⟨options, given, rfl, spells, one, rfl⟩
      refine ⟨make given, ?_, named given, sourced given⟩
      rw [behind]
      exact (reading_eq_ok_iff distinct demand).mpr ⟨given, spells, one, rfl⟩
  refuses options given spells several := by
    rw [behind]
    exact reading_refuses distinct demand spells several

end Reading

end Choice

theorem isExclusive_of_mem {choice : Choice} (member : choice ∈ choices) : choice.IsExclusive := by
  simp only [choices, List.mem_cons, List.not_mem_nil, or_false] at member
  rcases member with rfl | rfl | rfl
  · exact Choice.isExclusive_of_reading (by decide) (fun _ => rfl) (fun _ => rfl) (fun _ => rfl)
      (fun _ => rfl) Settings.IsAccepted.source_of_among
  · exact Choice.isExclusive_of_reading (by decide) (fun _ => rfl) (fun _ => rfl) (fun _ => rfl)
      (fun _ => rfl) Settings.IsAccepted.source_of_among
  · exact Choice.isExclusive_of_reading (by decide)
      (fun settings => settings.check_excludes_requiredUnless .preset .config) (fun _ => rfl)
      (fun _ => rfl) (fun _ => rfl) Settings.IsAccepted.newSource_of_among

/-- Exactly one architecture reaches the work. Whatever the arguments are: they are accepted as
a command that works on an architecture exactly if they spell options of the command, each
once and with a value that it accepts, and exactly one of those that name an architecture; its
value is the source of the command. With none of them or with several the command is refused.
So a preset without a name comes only from an option that gives it, and a new checkpoint is
never made from a checkpoint. -/
theorem exactly_one_source :
    (∀ choice ∈ choices, choice.IsExclusive ∧
      ∀ options given, choice.Chooses options given (.preset "") → (Flag.preset, "") ∈ given) ∧
      ∀ arguments source directory backend,
        ofArguments arguments = .ok (init source directory backend) →
          ∀ stored, source ≠ .checkpoint stored := by
  refine ⟨fun choice member => ⟨isExclusive_of_mem member, fun options given chooses => ?_⟩, ?_⟩
  · obtain ⟨flag, value, alone, named⟩ := chooses.alone
    have given : (flag, value) ∈ given.among choice.sources := by
      rw [alone]
      exact List.mem_singleton_self _
    cases flag <;> cases named
    exact (Settings.mem_among_iff.mp given).1
  · intro arguments source directory backend reads stored checkpoint
    have exclusive : Choice.IsExclusive ⟨"init", initFlags, [.preset, .config]⟩ :=
      isExclusive_of_mem (by simp [choices])
    obtain ⟨options, given, -, chooses⟩ :=
      (exclusive.takes arguments source).mp ⟨_, reads, rfl, rfl⟩
    obtain ⟨flag, value, alone, named⟩ := chooses.alone
    have known := (chooses.accepted.values_of_among alone).1
    simp only [List.mem_cons, List.not_mem_nil, or_false] at known
    rcases known with rfl | rfl <;> cases named <;> cases checkpoint

/-- A check of the configuration in a file, with a seed attached to its option and a terminator
at the end; together with a preset it is refused. -/
theorem exactly_one_source_check :
    (∃ request backend,
      ofArguments ["check", "--seed=7", "--config", "net.json", "--"] = .ok (check request backend) ∧
        request.source = .configFile "net.json") ∧
      ofArguments ["check", "--config", "net.json", "--preset="] = .error .conflict := by
  obtain ⟨⟨takes, refuses⟩, -⟩ := exactly_one_source.1 ⟨"check", checkFlags, sourceFlags⟩
    (by simp [choices])
  constructor
  · have spells : Spells checkFlags ["--seed=7", "--config", "net.json", "--"]
        [(.seed, "7"), (.config, "net.json")] :=
      .attached (by decide : Flag.seed ∈ checkFlags) "7"
        (.behind (by decide : Flag.config ∈ checkFlags) (.inl (by decide)) .terminated)
    have accepted : Settings.IsAccepted [(.seed, "7"), (.config, "net.json")] :=
      ⟨by decide, by decide⟩
    obtain ⟨command, reads, name, source⟩ := (takes _ (.configFile "net.json")).mpr
      ⟨_, _, rfl, spells, accepted, .config, "net.json", by decide, rfl⟩
    cases command with
    | check request backend => exact ⟨request, backend, reads, Option.some.inj source⟩
    | presets | summary | init => simp [Command.name] at name
  · have spells : Spells checkFlags ["--config", "net.json", "--preset="]
        [(.config, "net.json"), (.preset, "")] :=
      .behind (by decide : Flag.config ∈ checkFlags) (.inl (by decide))
        (.attached (by decide : Flag.preset ∈ checkFlags) "" .done)
    obtain ⟨fault, refused, kind⟩ := refuses _ _ spells (by decide)
    rw [refused, kind ⟨by decide, by decide⟩]
    rfl

end Command

end InvertibleNet
