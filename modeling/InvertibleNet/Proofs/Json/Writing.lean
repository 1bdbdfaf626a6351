/-
# Reading what was written

A document that the library writes is read back as the document that it was,
whatever blanks stand between its parts. The induction is on the document: each
part is read to its end, and what stands behind it, a comma or a bracket, is
left to the list or the map that the part belongs to.

Every part takes a character off for each step of the reader, so the length of
the text bounds the steps.
-/

import Mathlib.Data.List.DropRight
import InvertibleNet.Json.Value
import InvertibleNet.Proofs.Json.Numeral

namespace InvertibleNet.Json

open Decimal

/-! ## Blanks -/

/-- Blanks and nothing else. -/
def AreBlanks (text : List Char) : Prop := ∀ c ∈ text, isBlank c = true

variable {text rest : List Char}

theorem isBlank_cases {c : Char} (blank : isBlank c = true) :
    c = ' ' ∨ c = '\n' ∨ c = '\t' ∨ c = '\r' := by
  simpa [isBlank, or_assoc] using blank

theorem skipBlanks_append (blanks : AreBlanks text) (rest : List Char) :
    skipBlanks (text ++ rest) = skipBlanks rest :=
  List.dropWhile_append_of_pos blanks

theorem skipBlanks_cons {c : Char} (dark : isBlank c = false) (rest : List Char) :
    skipBlanks (c :: rest) = c :: rest :=
  List.dropWhile_cons_of_neg (by simp [dark])

/-- Blanks in front of a value do not matter. -/
theorem readValue_skipBlanks (steps : Nat) (text : List Char) :
    readValue steps (skipBlanks text) = readValue steps text := by
  cases steps with
  | zero => rw [readValue, readValue]
  | succ steps =>
      rw [readValue, readValue, show skipBlanks (skipBlanks text) = skipBlanks text from
        List.dropWhile_idempotent _ text]

/-- Blanks in front of the first item do not matter. -/
theorem readItems_skipBlanks (steps : Nat) (text : List Char) :
    readItems steps (skipBlanks text) = readItems steps text := by
  cases steps with
  | zero => rw [readItems, readItems]
  | succ steps => rw [readItems, readItems, readValue_skipBlanks]

/-! ## Strings -/

/-- Whether a string holds only characters that stand for themselves. -/
def IsPlain (key : String) : Prop := ∀ c ∈ key.toList, c ≠ '"' ∧ c ≠ '\\' ∧ 0x20 ≤ c.toNat

instance (key : String) : Decidable (IsPlain key) := List.decidableBAll _ key.toList

theorem afterString_plain (plain : ∀ c ∈ text, c ≠ '"' ∧ c ≠ '\\' ∧ 0x20 ≤ c.toNat)
    (rest : List Char) : afterString (text ++ '"' :: rest) = .ok rest := by
  induction text with
  | nil => rw [List.nil_append, afterString]
  | cons c text ih =>
      obtain ⟨quote, backslash, printable⟩ := plain c List.mem_cons_self
      have behind := ih fun other member => plain other (List.mem_cons_of_mem c member)
      rw [List.cons_append, afterString.eq_def]
      simp [backslash, Nat.not_lt.mpr printable, behind]

theorem stringContent_plain (plain : ∀ c ∈ text, c ≠ '"' ∧ c ≠ '\\' ∧ 0x20 ≤ c.toNat)
    (rest : List Char) : stringContent (text ++ '"' :: rest) = .ok text := by
  induction text with
  | nil => rw [List.nil_append, stringContent]
  | cons c text ih =>
      obtain ⟨quote, backslash, printable⟩ := plain c List.mem_cons_self
      have behind := ih fun other member => plain other (List.mem_cons_of_mem c member)
      rw [List.cons_append, stringContent.eq_def]
      simp [backslash, Nat.not_lt.mpr printable, behind, Except.map]

/-- A plain key is read to its end, and the colon behind it. -/
theorem keyReading_plain {key : String} {between : List Char} (plain : IsPlain key)
    (blanks : AreBlanks between) (rest : List Char) :
    keyReading (key.toList ++ '"' :: (between ++ ':' :: rest)) = .complete (.ok key) rest := by
  unfold keyReading
  rw [afterString_plain plain, stringText, stringContent_plain plain]
  simp only [skipBlanks_append blanks, skipBlanks_cons (c := ':') rfl]
  simp [Except.map]

/-! ## Written documents -/

mutual

/-- What a reader makes of a document that was written. -/
def Value.reading : Value → Reading
  | .null => .null
  | .boolean value => .boolean value
  | .number literal => .number literal.toList
  | .list items => .list (itemReadings items) none
  | .map entries => .map (entryReadings entries) none

def itemReadings : List Value → List Reading
  | [] => []
  | item :: items => item.reading :: itemReadings items

def entryReadings : List (String × Value) → List (Except Fault String × Reading)
  | [] => []
  | (key, value) :: entries => (.ok key, value.reading) :: entryReadings entries

end

/-- A text with blanks around it. -/
def Padded (form : List Char → Prop) (text : List Char) : Prop :=
  ∃ before inner after, AreBlanks before ∧ form inner ∧ AreBlanks after ∧
    text = before ++ (inner ++ after)

/-- An entry of a map: a key, a colon and a value. -/
def Entry (key : String) (form : List Char → Prop) (text : List Char) : Prop :=
  ∃ before between padded, AreBlanks before ∧ IsPlain key ∧ AreBlanks between ∧
    Padded form padded ∧ text = before ++ '"' :: (key.toList ++ '"' :: (between ++ ':' :: padded))

/-- Parts with commas between them, or blanks if there is no part. -/
def Separated : (parts : List (List Char → Prop)) → List Char → Prop
  | [], text => AreBlanks text
  | [part], text => part text
  | part :: next :: parts, text =>
      ∃ front others, part front ∧ Separated (next :: parts) others ∧ text = front ++ ',' :: others

mutual

/-- Whether a text is a document with any blanks between its parts. -/
def Value.Written : Value → List Char → Prop
  | .null, text => text = ['n', 'u', 'l', 'l']
  | .boolean value, text => text = (if value then "true" else "false").toList
  | .number literal, text => IsNumeral text ∧ text = literal.toList
  | .list items, text =>
      ∃ inside, Separated (itemForms items) inside ∧ text = '[' :: (inside ++ [']'])
  | .map entries, text =>
      ∃ inside, Separated (entryForms entries) inside ∧ text = '\x7b' :: (inside ++ ['\x7d'])

def itemForms : List Value → List (List Char → Prop)
  | [] => []
  | item :: items => Padded item.Written :: itemForms items

def entryForms : List (String × Value) → List (List Char → Prop)
  | [] => []
  | (key, value) :: entries => Entry key value.Written :: entryForms entries

end

/-- A numeral starts with a character that is no blank and no other mark. -/
theorem IsNumeral.starts_value (numeral : IsNumeral text) :
    ∃ c tail, text = c :: tail ∧ (c = '-' ∨ isDigit c = true) ∧ isBlank c = false ∧ c ≠ ']' := by
  obtain ⟨c, tail, rfl, first⟩ := numeral.starts
  refine ⟨c, tail, rfl, first, ?_, ?_⟩
  · rw [← Bool.not_eq_true]
    intro blank
    rcases isBlank_cases blank with rfl | rfl | rfl | rfl <;> revert first <;> decide
  · rintro rfl
    revert first
    decide

/-- A written document starts with a character that is no blank and ends no list. -/
theorem Value.Written.starts {value : Value} (written : value.Written text) :
    ∃ c tail, text = c :: tail ∧ isBlank c = false ∧ c ≠ ']' := by
  cases value with
  | null =>
      rw [Written] at written
      exact ⟨'n', _, written, by decide, by decide⟩
  | boolean value =>
      rw [Written] at written
      cases value with
      | true => exact ⟨'t', _, written, by decide, by decide⟩
      | false => exact ⟨'f', _, written, by decide, by decide⟩
  | number literal =>
      rw [Written] at written
      obtain ⟨c, tail, rfl, -, dark, open_list⟩ := written.1.starts_value
      exact ⟨c, tail, rfl, dark, open_list⟩
  | list items =>
      rw [Written] at written
      obtain ⟨inside, -, rfl⟩ := written
      exact ⟨'[', _, rfl, by decide, by decide⟩
  | map entries =>
      rw [Written] at written
      obtain ⟨inside, -, rfl⟩ := written
      exact ⟨'\x7b', _, rfl, by decide, by decide⟩

/-- The inside of a list that is not empty does not end the list at once. -/
theorem starts_items {item : Value} {items : List Value}
    (separated : Separated (itemForms (item :: items)) text) (rest : List Char) :
    ∃ c tail, skipBlanks (text ++ rest) = c :: tail ∧ c ≠ ']' := by
  have first : ∃ front others, Padded item.Written front ∧ text = front ++ others := by
    cases items with
    | nil => exact ⟨text, [], separated, (List.append_nil text).symm⟩
    | cons next items =>
        obtain ⟨front, others, padded, -, rfl⟩ := separated
        exact ⟨front, ',' :: others, padded, rfl⟩
  obtain ⟨front, others, ⟨before, body, after, blanks, written, -, rfl⟩, rfl⟩ := first
  obtain ⟨c, tail, rfl, dark, open_list⟩ := written.starts
  refine ⟨c, tail ++ (after ++ (others ++ rest)), ?_, open_list⟩
  rw [List.append_assoc, List.append_assoc, skipBlanks_append blanks, List.append_assoc,
    List.cons_append, skipBlanks_cons dark]

/-- The first item of a list may be read from the first character on that is no blank. -/
theorem inside_items {item : Value} {items : List Value} {steps : Nat}
    {result : List Reading × Option Break × List Char}
    (separated : Separated (itemForms (item :: items)) text)
    (read : readItems steps (text ++ ']' :: rest) = result) :
    ∃ c tail, skipBlanks (text ++ ']' :: rest) = c :: tail ∧ c ≠ ']' ∧
      readItems steps (c :: tail) = result := by
  obtain ⟨c, tail, starts, open_list⟩ := starts_items separated (']' :: rest)
  refine ⟨c, tail, starts, open_list, ?_⟩
  rw [← starts, readItems_skipBlanks, read]

/-! ## Reading -/

theorem EndsNumeral.blanks (blanks : AreBlanks text) (ends : EndsNumeral rest) :
    EndsNumeral (text ++ rest) := by
  cases text with
  | nil => exact ends
  | cons c text =>
      apply EndsNumeral.cons (text ++ rest)
      rcases isBlank_cases (blanks c List.mem_cons_self) with rfl | rfl | rfl | rfl <;> decide

/-- Whether a document is read to its end wherever it stands. -/
def Value.Reads (value : Value) : Prop :=
  ∀ {text rest : List Char} {steps : Nat}, value.Written text → text.length ≤ steps →
    EndsNumeral rest → readValue steps (text ++ rest) = (value.reading, rest)

variable {value item : Value} {inside front others : List Char} {steps : Nat}

/-- A value with blanks around it is read up to the blanks behind it. -/
theorem Value.Reads.padded (reads : value.Reads) (padded : Padded value.Written front)
    (bound : front.length ≤ steps) (ends : EndsNumeral rest) :
    ∃ behind, readValue steps (front ++ rest) = (value.reading, behind) ∧
      skipBlanks behind = skipBlanks rest := by
  obtain ⟨before, body, after, before_blanks, written, after_blanks, rfl⟩ := padded
  refine ⟨after ++ rest, ?_, skipBlanks_append after_blanks rest⟩
  rw [← readValue_skipBlanks, List.append_assoc, skipBlanks_append before_blanks,
    readValue_skipBlanks, List.append_assoc]
  exact reads written (by simp at bound; omega) (EndsNumeral.blanks after_blanks ends)

theorem readItems_last (reads : item.Reads) (padded : Padded item.Written inside)
    (bound : inside.length < steps) :
    readItems steps (inside ++ ']' :: rest) = ([item.reading], none, rest) := by
  obtain ⟨steps, rfl⟩ := Nat.exists_eq_add_of_le' (Nat.one_le_of_lt bound)
  obtain ⟨behind, read, blanks⟩ := reads.padded padded (Nat.le_of_lt_succ bound)
    (EndsNumeral.cons rest (c := ']') (by decide))
  rw [readItems, read]
  simp only [blanks, skipBlanks_cons (c := ']') rfl]

theorem readItems_cons {readings : List Reading} (reads : item.Reads)
    (padded : Padded item.Written front) (bound : front.length ≤ steps)
    (inner : ∃ c tail, skipBlanks (others ++ ']' :: rest) = c :: tail ∧ c ≠ ']' ∧
      readItems steps (c :: tail) = (readings, none, rest)) :
    readItems (steps + 1) (front ++ ',' :: (others ++ ']' :: rest)) =
      (item.reading :: readings, none, rest) := by
  obtain ⟨behind, read, blanks⟩ := reads.padded padded bound
    (EndsNumeral.cons (others ++ ']' :: rest) (c := ',') (by decide))
  obtain ⟨c, tail, starts, open_list, inner⟩ := inner
  rw [readItems, read]
  simp [blanks, skipBlanks_cons (c := ',') rfl, starts, open_list, inner]

/-- An entry is read up to the blanks behind its value. -/
theorem readEntry {key : String} (reads : value.Reads) (entry : Entry key value.Written front)
    (bound : front.length ≤ steps) (ends : EndsNumeral rest) :
    ∃ inner behindColon behind, skipBlanks (front ++ rest) = '"' :: inner ∧
      keyReading inner = .complete (.ok key) behindColon ∧
      readValue steps behindColon = (value.reading, behind) ∧
      skipBlanks behind = skipBlanks rest := by
  obtain ⟨before, between, padded, before_blanks, plain, between_blanks, is_padded, rfl⟩ := entry
  have shorter : padded.length ≤ steps := by
    simp at bound
    omega
  obtain ⟨behind, read, blanks⟩ := reads.padded is_padded shorter ends
  refine ⟨key.toList ++ '"' :: (between ++ ':' :: (padded ++ rest)), padded ++ rest, behind, ?_,
    keyReading_plain plain between_blanks _, read, blanks⟩
  rw [List.append_assoc, skipBlanks_append before_blanks, List.cons_append,
    skipBlanks_cons (c := '"') rfl]
  simp

theorem readEntries_last {key : String} (reads : value.Reads)
    (entry : Entry key value.Written inside) (bound : inside.length < steps) :
    ∃ inner, skipBlanks (inside ++ '\x7d' :: rest) = '"' :: inner ∧
      readEntries steps inner = ([(.ok key, value.reading)], none, rest) := by
  obtain ⟨steps, rfl⟩ := Nat.exists_eq_add_of_le' (Nat.one_le_of_lt bound)
  obtain ⟨inner, behindColon, behind, starts, complete, read, blanks⟩ := readEntry reads entry
    (Nat.le_of_lt_succ bound) (EndsNumeral.cons rest (c := '\x7d') (by decide))
  refine ⟨inner, starts, ?_⟩
  rw [readEntries, complete]
  simp only [read, blanks, skipBlanks_cons (c := '\x7d') rfl]

theorem readEntries_cons {key : String} {readings : List (Except Fault String × Reading)}
    (reads : value.Reads) (entry : Entry key value.Written front) (bound : front.length ≤ steps)
    (inner : ∃ inner, skipBlanks (others ++ '\x7d' :: rest) = '"' :: inner ∧
      readEntries steps inner = (readings, none, rest)) :
    ∃ inner, skipBlanks (front ++ ',' :: (others ++ '\x7d' :: rest)) = '"' :: inner ∧
      readEntries (steps + 1) inner = ((.ok key, value.reading) :: readings, none, rest) := by
  obtain ⟨first, behindColon, behind, starts, complete, read, blanks⟩ := readEntry reads entry
    bound (EndsNumeral.cons (others ++ '\x7d' :: rest) (c := ',') (by decide))
  obtain ⟨next, next_starts, next_reads⟩ := inner
  refine ⟨first, starts, ?_⟩
  rw [readEntries, complete]
  simp [read, blanks, skipBlanks_cons (c := ',') rfl, next_starts, next_reads]

theorem wordReading_append (word : List Char) (value : Reading) (rest : List Char) :
    wordReading word (word ++ rest) value = (value, rest) := by
  have after : afterWord word (word ++ rest) = .ok rest := by
    induction word with
    | nil => cases rest <;> rfl
    | cons c word ih =>
        rw [List.cons_append, afterWord, if_pos rfl]
        exact ih
  rw [wordReading, after]

/-- A numeral in the place of a value is read to its end. -/
theorem readValue_numeral (numeral : IsNumeral text) (ends : EndsNumeral rest) (steps : Nat) :
    readValue (steps + 1) (text ++ rest) = (.number text, rest) := by
  have read := numberText_append numeral ends
  obtain ⟨c, tail, rfl, first, dark, -⟩ := numeral.starts_value
  rw [List.cons_append] at read
  rw [readValue, List.cons_append, skipBlanks_cons dark]
  have other : ∀ mark : Char, ¬ (mark = '-' ∨ isDigit mark = true) → c ≠ mark := by
    rintro _ neither rfl
    exact neither first
  simp [other 'n' (by decide), other 't' (by decide), other 'f' (by decide),
    other '"' (by decide), other '[' (by decide), other '\x7b' (by decide), first, numberReading,
    read]

mutual

/-- A written document is read to its end. -/
theorem readValue_written : ∀ value : Value, value.Reads
  | .null, text, rest, steps, written, bound, _ => by
      rw [Value.Written] at written
      subst written
      obtain ⟨steps, rfl⟩ := Nat.exists_eq_add_of_le' (Nat.le_trans (by simp) bound : 1 ≤ steps)
      exact wordReading_append ['u', 'l', 'l'] .null rest
  | .boolean true, text, rest, steps, written, bound, _ => by
      rw [Value.Written] at written
      subst written
      obtain ⟨steps, rfl⟩ := Nat.exists_eq_add_of_le' (Nat.le_trans (by simp) bound : 1 ≤ steps)
      exact wordReading_append ['r', 'u', 'e'] (.boolean true) rest
  | .boolean false, text, rest, steps, written, bound, _ => by
      rw [Value.Written] at written
      subst written
      obtain ⟨steps, rfl⟩ := Nat.exists_eq_add_of_le' (Nat.le_trans (by simp) bound : 1 ≤ steps)
      exact wordReading_append ['a', 'l', 's', 'e'] (.boolean false) rest
  | .number literal, text, rest, steps, written, bound, ends => by
      rw [Value.Written] at written
      obtain ⟨numeral, rfl⟩ := written
      obtain ⟨c, tail, starts, -⟩ := numeral.starts
      obtain ⟨steps, rfl⟩ :=
        Nat.exists_eq_add_of_le' (Nat.le_trans (by simp [starts]) bound : 1 ≤ steps)
      exact readValue_numeral numeral ends steps
  | .list items, text, rest, steps, written, bound, _ => by
      rw [Value.Written] at written
      obtain ⟨inside, separated, rfl⟩ := written
      obtain ⟨steps, rfl⟩ := Nat.exists_eq_add_of_le' (Nat.le_trans (by simp) bound : 1 ≤ steps)
      have shorter : inside.length < steps := by
        simp at bound
        omega
      rw [List.cons_append, List.append_assoc, readValue, skipBlanks_cons (c := '[') rfl]
      rcases readItems_written items rest separated shorter with rfl | inner
      · have blanks : AreBlanks inside := separated
        simp [skipBlanks_append blanks, skipBlanks_cons (c := ']') rfl, Value.reading, itemReadings]
      · obtain ⟨c, tail, starts, open_list, read⟩ := inner
        simp [starts, open_list, read, Value.reading]
  | .map entries, text, rest, steps, written, bound, _ => by
      rw [Value.Written] at written
      obtain ⟨inside, separated, rfl⟩ := written
      obtain ⟨steps, rfl⟩ := Nat.exists_eq_add_of_le' (Nat.le_trans (by simp) bound : 1 ≤ steps)
      have shorter : inside.length < steps := by
        simp at bound
        omega
      rw [List.cons_append, List.append_assoc, readValue, skipBlanks_cons (c := '\x7b') rfl]
      rcases readEntries_written entries rest separated shorter with rfl | inner
      · have blanks : AreBlanks inside := separated
        simp [skipBlanks_append blanks, skipBlanks_cons (c := '\x7d') rfl, Value.reading,
          entryReadings]
      · obtain ⟨behind, starts, read⟩ := inner
        simp [starts, read, Value.reading]

/-- The items of a written list are read up to its end. -/
theorem readItems_written : ∀ (items : List Value) (rest : List Char) {inside : List Char}
    {steps : Nat}, Separated (itemForms items) inside → inside.length < steps →
    items = [] ∨ ∃ c tail, skipBlanks (inside ++ ']' :: rest) = c :: tail ∧ c ≠ ']' ∧
      readItems steps (c :: tail) = (itemReadings items, none, rest)
  | [], _, _, _, _, _ => .inl rfl
  | [item], rest, _, _, separated, bound =>
      .inr (inside_items separated (readItems_last (readValue_written item) separated bound))
  | item :: next :: items, rest, inside, steps, separated, bound => by
      refine .inr (inside_items separated ?_)
      obtain ⟨front, others, padded, later, rfl⟩ := separated
      simp only [List.length_append, List.length_cons] at bound
      obtain ⟨steps, rfl⟩ := Nat.exists_eq_add_of_le' (Nat.one_le_of_lt bound)
      rw [List.append_assoc, List.cons_append]
      apply readItems_cons (readValue_written item) padded (by omega)
      exact (readItems_written (next :: items) rest later (by omega)).resolve_left
        (List.cons_ne_nil _ _)

/-- The entries of a written map are read up to its end. -/
theorem readEntries_written : ∀ (entries : List (String × Value)) (rest : List Char)
    {inside : List Char} {steps : Nat}, Separated (entryForms entries) inside →
    inside.length < steps →
    entries = [] ∨ ∃ inner, skipBlanks (inside ++ '\x7d' :: rest) = '"' :: inner ∧
      readEntries steps inner = (entryReadings entries, none, rest)
  | [], _, _, _, _, _ => .inl rfl
  | [(_, value)], _, _, _, separated, bound =>
      .inr (readEntries_last (readValue_written value) separated bound)
  | (_, value) :: next :: entries, rest, inside, steps, separated, bound => by
      obtain ⟨front, others, entry, later, rfl⟩ := separated
      simp only [List.length_append, List.length_cons] at bound
      obtain ⟨steps, rfl⟩ := Nat.exists_eq_add_of_le' (Nat.one_le_of_lt bound)
      rw [List.append_assoc, List.cons_append]
      apply Or.inr
      apply readEntries_cons (readValue_written value) entry (by omega)
      exact (readEntries_written (next :: entries) rest later (by omega)).resolve_left
        (List.cons_ne_nil _ _)

end

/-! ## The text with a line for every part -/

mutual

/-- Whether every number of a document is a numeral and every key stands for itself. -/
def Value.IsSound : Value → Prop
  | .null => True
  | .boolean _ => True
  | .number literal => IsNumeral literal.toList
  | .list items => ItemsSound items
  | .map entries => EntriesSound entries

def ItemsSound : List Value → Prop
  | [] => True
  | item :: items => item.IsSound ∧ ItemsSound items

def EntriesSound : List (String × Value) → Prop
  | [] => True
  | (key, value) :: entries => IsPlain key ∧ value.IsSound ∧ EntriesSound entries

end

theorem areBlanks_nil : AreBlanks [] := fun _ member => by cases member

theorem areBlanks_space : AreBlanks [' '] := by
  intro c member
  obtain rfl := List.mem_singleton.mp member
  rfl

theorem areBlanks_lineStart (level : Nat) : AreBlanks (Value.lineStart level).toList := by
  intro c member
  simp only [Value.lineStart, String.toList_append, String.toList_ofList, List.mem_append] at member
  rcases member with newline | space
  · obtain rfl : c = '\n' := by simpa using newline
    rfl
  · obtain rfl := List.eq_of_mem_replicate space
    rfl

mutual

/-- The text with a line for every part is a written document. -/
theorem Value.written_indented : ∀ (value : Value) (level : Nat), value.IsSound →
    value.Written (value.indented level).toList
  | .null, _, _ => by simp [Value.Written, Value.indented]
  | .boolean _, _, _ => rfl
  | .number _, _, sound => ⟨sound, rfl⟩
  | .list [], _, _ => ⟨[], areBlanks_nil, by simp [Value.indented]⟩
  | .list (item :: items), level, sound => by
      refine ⟨_, separated_items (item :: items) (level + 1) level sound (List.cons_ne_nil _ _), ?_⟩
      simp [Value.indented]
  | .map [], _, _ => ⟨[], areBlanks_nil, by simp [Value.indented]⟩
  | .map (entry :: entries), level, sound => by
      refine ⟨_, separated_entries (entry :: entries) (level + 1) level sound
        (List.cons_ne_nil _ _), ?_⟩
      simp [Value.indented]

theorem separated_items : ∀ (items : List Value) (level closing : Nat), ItemsSound items →
    items ≠ [] → Separated (itemForms items)
      (",".intercalate (Value.indentedItems level items) ++ Value.lineStart closing).toList
  | [], _, _, _, nonempty => absurd rfl nonempty
  | [item], level, closing, sound, _ => by
      refine ⟨_, _, _, areBlanks_lineStart level, item.written_indented level sound.1,
        areBlanks_lineStart closing, ?_⟩
      simp [Value.indentedItems]
  | item :: next :: items, level, closing, sound, _ => by
      refine ⟨_, _, ⟨_, _, _, areBlanks_lineStart level, item.written_indented level sound.1,
        areBlanks_nil, rfl⟩, separated_items (next :: items) level closing sound.2
          (List.cons_ne_nil _ _), ?_⟩
      simp [Value.indentedItems]

theorem separated_entries : ∀ (entries : List (String × Value)) (level closing : Nat),
    EntriesSound entries → entries ≠ [] → Separated (entryForms entries)
      (",".intercalate (Value.indentedEntries level entries) ++ Value.lineStart closing).toList
  | [], _, _, _, nonempty => absurd rfl nonempty
  | [(key, value)], level, closing, sound, _ => by
      refine ⟨_, [], _, areBlanks_lineStart level, sound.1, areBlanks_nil,
        ⟨[' '], _, _, areBlanks_space, value.written_indented level sound.2.1,
          areBlanks_lineStart closing, rfl⟩, ?_⟩
      simp [Value.indentedEntries]
  | (key, value) :: next :: entries, level, closing, sound, _ => by
      refine ⟨_, _, ⟨_, [], _, areBlanks_lineStart level, sound.1, areBlanks_nil,
        ⟨[' '], _, [], areBlanks_space, value.written_indented level sound.2.1, areBlanks_nil,
          rfl⟩, rfl⟩,
        separated_entries (next :: entries) level closing sound.2.2 (List.cons_ne_nil _ _), ?_⟩
      simp [Value.indentedEntries]

end

/-! ## The text without blanks -/

mutual

/-- The text without blanks is a written document. -/
theorem Value.written_compact : ∀ value : Value, value.IsSound → value.Written value.compact.toList
  | .null, _ => by simp [Value.Written, Value.compact]
  | .boolean _, _ => rfl
  | .number _, sound => ⟨sound, rfl⟩
  | .list items, sound => ⟨_, separated_compactItems items sound, by simp [Value.compact]⟩
  | .map entries, sound => ⟨_, separated_compactEntries entries sound, by simp [Value.compact]⟩

theorem separated_compactItems : ∀ items : List Value, ItemsSound items →
    Separated (itemForms items) (",".intercalate (Value.compactItems items)).toList
  | [], _ => areBlanks_nil
  | [item], sound => by
      refine ⟨[], _, [], areBlanks_nil, item.written_compact sound.1, areBlanks_nil, ?_⟩
      simp [Value.compactItems]
  | item :: next :: items, sound => by
      refine ⟨_, _, ⟨[], _, [], areBlanks_nil, item.written_compact sound.1, areBlanks_nil, rfl⟩,
        separated_compactItems (next :: items) sound.2, ?_⟩
      simp [Value.compactItems]

theorem separated_compactEntries : ∀ entries : List (String × Value), EntriesSound entries →
    Separated (entryForms entries) (",".intercalate (Value.compactEntries entries)).toList
  | [], _ => areBlanks_nil
  | [(key, value)], sound => by
      refine ⟨[], [], _, areBlanks_nil, sound.1, areBlanks_nil,
        ⟨[], _, [], areBlanks_nil, value.written_compact sound.2.1, areBlanks_nil, rfl⟩, ?_⟩
      simp [Value.compactEntries]
  | (key, value) :: next :: entries, sound => by
      refine ⟨_, _, ⟨[], [], _, areBlanks_nil, sound.1, areBlanks_nil,
        ⟨[], _, [], areBlanks_nil, value.written_compact sound.2.1, areBlanks_nil, rfl⟩, rfl⟩,
        separated_compactEntries (next :: entries) sound.2.2, ?_⟩
      simp [Value.compactEntries]

end

/-! ## Whole texts -/

/-- A document reads back as itself from any text that it is written as. -/
theorem Document.ofText_written {value : Value} (written : value.Written text) :
    Document.ofText text = ⟨value.reading, false⟩ := by
  have enough : text.length ≤ 2 * text.length + 2 := by omega
  have read := readValue_written value written enough EndsNumeral.nil
  rw [List.append_nil] at read
  rw [Document.ofText, read]
  rfl

/-- Whether a text is one of the two that the library writes for a document. -/
def Value.IsText (value : Value) (text : String) : Prop :=
  text = value.compact ∨ text = value.pretty

theorem Value.IsText.written {value : Value} {text : String} (texts : value.IsText text)
    (sound : value.IsSound) : value.Written text.toList := by
  rcases texts with rfl | rfl
  · exact value.written_compact sound
  · exact value.written_indented 0 sound

end InvertibleNet.Json
