/-
# Records that were written

A record that was written is read field by field, in its own order: no key is
unknown, none stands twice and none is missing. So reading it back amounts to
reading what each field wrote into the blank value, one field after the other.
-/

import InvertibleNet.Json.Record
import InvertibleNet.Proofs.Json.Writing

namespace InvertibleNet.Json

variable {τ : Type}

/-! ## Counts -/

theorem isNumeral_count (value : Nat) : IsNumeral (toString value).toList := by
  rw [Nat.toString_eq_repr, Nat.toList_repr]
  exact .inl (isWhole_toDigits value).isUnsigned

theorem Value.isSound_count (value : Nat) : (Value.count value).IsSound := isNumeral_count value

theorem Value.isSound_counts (values : List Nat) : (Value.counts values).IsSound := by
  have items : ItemsSound (values.map Value.count) := by
    induction values with
    | nil => trivial
    | cons value values ih => exact ⟨Value.isSound_count value, ih⟩
  exact items

/-- A natural that fits a word is read back, whatever it is expected to be. -/
theorem word_reading (expected : Expectation) {value : Nat} (fits : value < Count.limit) :
    (Value.count value).reading.word expected = .ok value := by
  simp [Value.count, Value.reading, Reading.word, Nat.toString_eq_repr,
    Number.ofText_toDigits fits, bind, Except.bind, pure, Except.pure]

/-- A count that fits a word is read back. -/
theorem count_reading {value : Nat} (fits : value < Count.limit) :
    (Value.count value).reading.count = .ok value := word_reading .count fits

/-! ## Lists -/

/-- A list is read back if all its items are, and the items that are not all meet the same
fault. -/
theorem sequence_reading {α : Type} {item : Reading → Except Fault α} {write : α → Value}
    {holds : α → Prop} [DecidablePred holds] {fault : Fault} {values : List α}
    (reads : ∀ value ∈ values,
      item (write value).reading = if holds value then .ok value else .error fault) :
    (Value.list (values.map write)).reading.sequence item =
      if ∀ value ∈ values, holds value then .ok values else .error fault := by
  have items : (itemReadings (values.map write)).mapM item =
      if ∀ value ∈ values, holds value then .ok values else .error fault := by
    induction values with
    | nil => rfl
    | cons value values ih =>
        rw [List.forall_mem_cons] at reads
        rw [List.map_cons, itemReadings, List.mapM_cons, reads.1, ih reads.2]
        by_cases first : holds value
        · simp only [List.forall_mem_cons, first, true_and, if_true]
          split <;> rfl
        · simp only [List.forall_mem_cons, first, false_and, if_false]
          rfl
  rw [Value.reading, Reading.sequence, items]
  split <;> rfl

/-- A list of counts that fit a word is read back. -/
theorem counts_reading {values : List Nat} (fits : ∀ value ∈ values, value < Count.limit) :
    (Value.counts values).reading.counts = .ok values := by
  have read := @sequence_reading _ Reading.count Value.count (· < Count.limit) _ .malformed values
    fun value member => by rw [if_pos (fits value member), count_reading (fits value member)]
  rwa [if_pos fits] at read

/-! ## Fields -/

/-- The value that is read back from what some fields wrote, one after the other. -/
def Field.rereads (fields : List (Field τ)) (value start : τ) : Except Fault τ :=
  fields.foldlM (fun found field => field.read (field.write value).reading found) start

namespace Record

variable {record : Record τ} {value : τ}

/-- The field of a name is the one that carries it. -/
theorem find?_name {fields : List (Field τ)} (distinct : (fields.map (·.name)).Nodup)
    {field : Field τ} (member : field ∈ fields) :
    fields.find? (fun other => other.name == field.name) = some field := by
  induction fields with
  | nil => cases member
  | cons first fields ih =>
      rw [List.map_cons, List.nodup_cons] at distinct
      rcases List.mem_cons.mp member with rfl | later
      · exact List.find?_cons_of_pos (by simp)
      · have other : first.name ≠ field.name := fun same =>
          distinct.1 (same ▸ List.mem_map_of_mem later)
        rw [List.find?_cons_of_neg (by simp [other])]
        exact ih distinct.2 later

/-- Reading goes on behind the fields that were read already. -/
theorem readEntries_written (distinct : (record.fields.map (·.name)).Nodup)
    (later : List (Field τ)) {earlier : List (Field τ)} (fields : earlier ++ later = record.fields)
    {seen : List String} (known : ∀ name, name ∈ seen ↔ name ∈ earlier.map (·.name)) (start : τ) :
    record.readEntries none
        (entryReadings (later.map fun field => (field.name, field.write value))) seen start =
      Field.rereads later value start := by
  induction later generalizing earlier seen start with
  | nil =>
      have complete : record.fields.find?
          (fun field => field.required && !seen.contains field.name) = none := by
        rw [List.find?_eq_none]
        intro field member
        rw [← fields, List.append_nil] at member
        simp [(known field.name).mpr (List.mem_map_of_mem member)]
      rw [List.map_nil, entryReadings, readEntries, complete]
      rfl
  | cons field later ih =>
      have found : record.fields.find? (fun other => other.name == field.name) = some field :=
        find?_name distinct (fields ▸ by simp)
      have unseen : field.name ∉ seen := by
        rw [known]
        rw [← fields, List.map_append, List.nodup_append] at distinct
        intro before
        exact distinct.2.2 _ before _ (List.mem_map_of_mem List.mem_cons_self) rfl
      rw [List.map_cons, entryReadings, readEntries, Field.rereads, List.foldlM_cons]
      simp only [found, bind, Except.bind]
      rw [if_neg (by simpa using unseen)]
      cases field.read (field.write value).reading start with
      | error fault => rfl
      | ok next =>
          refine ih (show (earlier ++ [field]) ++ later = record.fields by simpa using fields)
            (fun name => ?_) next
          simp [known, or_comm]

/-- A record that was written is read back field by field. -/
theorem ofReading_written (distinct : (record.fields.map (·.name)).Nodup) :
    record.ofReading (record.toValue value).reading =
      Field.rereads record.fields value record.blank :=
  readEntries_written distinct record.fields (List.nil_append _) (by simp) record.blank

/-- The entries of some fields are sound if the fields are. -/
theorem entriesSound_fields {fields : List (Field τ)} (names : ∀ field ∈ fields, IsPlain field.name)
    (sound : ∀ field ∈ fields, (field.write value).IsSound) :
    EntriesSound (fields.map fun field => (field.name, field.write value)) := by
  induction fields with
  | nil => trivial
  | cons field fields ih =>
      rw [List.forall_mem_cons] at names sound
      exact ⟨names.1, sound.1, ih names.2 sound.2⟩

/-- A record reads back field by field from either text that is written for it. -/
theorem ofText_written {text : String} (distinct : (record.fields.map (·.name)).Nodup)
    (names : ∀ field ∈ record.fields, IsPlain field.name)
    (sound : ∀ field ∈ record.fields, (field.write value).IsSound)
    (texts : (record.toValue value).IsText text) :
    record.ofText text = Field.rereads record.fields value record.blank := by
  have whole : (record.toValue value).IsSound := entriesSound_fields names sound
  rw [ofText, Document.ofText_written (texts.written whole), ← ofReading_written distinct]
  cases record.ofReading (record.toValue value).reading <;> rfl

end Record

end InvertibleNet.Json
