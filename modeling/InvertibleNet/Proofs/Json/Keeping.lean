/-
# Records that are read

A count is read digit by digit as long as it fits a word, so every count of a document
does. A record is read from the blank value by reading its fields into it, in whatever
order they stand; what the blank value satisfies and every field keeps is therefore
satisfied by every record that is read.
-/

import InvertibleNet.Json.Record
import InvertibleNet.Proofs.Outcome

namespace InvertibleNet.Json

open Outcome

/-! ## Counts -/

theorem Literal.collect_lt {value : Nat} (fits : value < Count.limit) (digits : List Char) :
    (collect value digits).1 < Count.limit := by
  induction digits generalizing value with
  | nil => exact fits
  | cons digit digits ih =>
      simp only [collect]
      split
      · next small => exact ih small
      · exact fits

/-- A whole number of a document fits a word. -/
theorem Number.whole_lt {text : List Char} {value : Nat}
    (read : Number.ofText text = .ok (.whole value)) : value < Count.limit := by
  have small : (Literal.collect 0 (Literal.ofText text).whole).1 < Count.limit :=
    Literal.collect_lt (by decide) _
  unfold Number.ofText Literal.number at read
  simp only at read
  split at read
  · split at read
    · cases read
    · cases read
  · split at read
    · cases read
      exact small
    · split at read
      · cases read
      · cases read

namespace Reading

variable {α τ : Type}

theorem refuse_ne_ok (place : Reading) (expected : Expectation) (value : α) :
    place.refuse expected ≠ .ok value := by
  unfold refuse
  cases place.found with
  | ok found => simp
  | error fault => simp

/-- A count that is read fits a word. -/
theorem count_lt {place : Reading} {value : Nat} (read : place.count = .ok value) :
    value < Count.limit := by
  unfold count word at read
  split at read
  · obtain ⟨number, found, rest⟩ := bind_eq_ok_iff.mp read
    split at rest
    · cases rest
      exact Number.whole_lt found
    · cases rest
    · cases rest
  · exact absurd read (refuse_ne_ok _ _ _)

/-- Each value of a list that is read was read from an item. -/
theorem exists_item {item : Reading → Except Fault α} {items : List Reading} {values : List α}
    (read : items.mapM item = .ok values) :
    ∀ value ∈ values, ∃ place, item place = .ok value := by
  induction items generalizing values with
  | nil =>
      cases read
      exact fun _ member => absurd member List.not_mem_nil
  | cons place items ih =>
      rw [List.mapM_cons] at read
      obtain ⟨first, here, rest⟩ := bind_eq_ok_iff.mp read
      obtain ⟨others, there, made⟩ := bind_eq_ok_iff.mp rest
      cases made
      rw [List.forall_mem_cons]
      exact ⟨⟨place, here⟩, ih there⟩

theorem counts_lt {place : Reading} {values : List Nat} (read : place.counts = .ok values) :
    ∀ value ∈ values, value < Count.limit := by
  unfold counts sequence at read
  split at read
  · obtain ⟨found, items, rest⟩ := bind_eq_ok_iff.mp read
    split at rest
    · cases rest
      intro value member
      obtain ⟨item, here⟩ := exists_item items value member
      exact count_lt here
    · cases rest
  · exact absurd read (refuse_ne_ok _ _ _)

theorem optionalCounts_lt {place : Reading} {channels : Option (List Nat)}
    (read : place.optionalCounts = .ok channels) :
    ∀ widths, channels = some widths → ∀ width ∈ widths, width < Count.limit := by
  unfold optionalCounts at read
  split at read
  · cases read
    exact fun _ none => by cases none
  · cases found : place.counts with
    | error fault =>
        rw [found] at read
        cases read
    | ok widths =>
        rw [found] at read
        cases read
        intro _ same
        cases same
        exact counts_lt found

/-- What every reader keeps at its own item, reading into the parts of a value keeps. -/
theorem parts_keeps_at {holds : τ → Prop} {expected : Expectation} {ending : Option Break}
    {readers : List (Reading → τ → Except Fault τ)} {items : List Reading} {index : Nat}
    {start value : τ} (keeps : ∀ (n : Nat) (reader : Reading → τ → Except Fault τ) place,
      readers[n]? = some reader → items[n]? = some place → ∀ before after, holds before →
        reader place before = .ok after → holds after)
    (first : holds start) (read : parts expected ending readers items index start = .ok value) :
    holds value := by
  induction readers generalizing items index start with
  | nil =>
      cases items with
      | nil =>
          unfold parts at read
          split at read
          · cases read
            exact first
          · cases read
      | cons item items => cases read
  | cons reader readers ih =>
      cases items with
      | nil =>
          unfold parts at read
          split at read
          · cases read
          · cases read
      | cons item items =>
          obtain ⟨next, reads, rest⟩ := bind_eq_ok_iff.mp read
          exact ih (fun n => keeps (n + 1)) (keeps 0 reader item rfl rfl start next first reads) rest

/-- What every reader keeps at any item, reading into the parts of a value keeps. -/
theorem parts_keeps {holds : τ → Prop} {expected : Expectation} {ending : Option Break}
    {readers : List (Reading → τ → Except Fault τ)} {items : List Reading} {index : Nat}
    {start value : τ} (keeps : ∀ reader ∈ readers, ∀ place before after, holds before →
      reader place before = .ok after → holds after)
    (first : holds start) (read : parts expected ending readers items index start = .ok value) :
    holds value :=
  parts_keeps_at (fun _ reader place chosen _ =>
    keeps reader (List.mem_of_getElem? chosen) place) first read

end Reading

/-! ## Records -/

namespace Record

variable {τ : Type} {record : Record τ} {holds : τ → Prop}

/-- Whether a place of a document is one where a field stands: in a list it is the item of
the same number, in a map it is behind the name of the field. -/
def Stands (record : Record τ) (field : Field τ) (place : Reading) : Reading → Prop
  | .list items _ => ∃ n : Nat, record.fields[n]? = some field ∧ items[n]? = some place
  | .map entries _ => field ∈ record.fields ∧ (.ok field.name, place) ∈ entries
  | _ => False

theorem Stands.mem {field : Field τ} {place reading : Reading}
    (stands : record.Stands field place reading) : field ∈ record.fields := by
  unfold Stands at stands
  split at stands
  · obtain ⟨_, chosen, -⟩ := stands
    exact List.mem_of_getElem? chosen
  · exact stands.1
  · exact stands.elim

theorem readEntries_keeps {ending : Option Break}
    {entries : List (Except Fault String × Reading)} {seen : List String} {start value : τ}
    (keeps : ∀ field place, field ∈ record.fields → (.ok field.name, place) ∈ entries →
      ∀ before after, holds before → field.read place before = .ok after → holds after)
    (first : holds start) (read : record.readEntries ending entries seen start = .ok value) :
    holds value := by
  induction entries generalizing seen start with
  | nil =>
      unfold readEntries at read
      split at read
      · cases read
      · split at read
        · cases read
        · cases read
          exact first
  | cons entry entries ih =>
      obtain ⟨key, place⟩ := entry
      obtain ⟨name, rfl, rest⟩ := bind_eq_ok_iff.mp read
      have behind := fun field place member inside =>
        keeps field place member (List.mem_cons_of_mem _ inside)
      split at rest
      · split at rest
        · cases rest
        · exact ih behind first rest
      · next field found =>
        split at rest
        · cases rest
        · obtain ⟨next, reads, rest⟩ := bind_eq_ok_iff.mp rest
          obtain rfl : field.name = name := by simpa using List.find?_some found
          exact ih behind (keeps field place (List.mem_of_find?_eq_some found)
            List.mem_cons_self start next first reads) rest

/-- What the blank record satisfies and every field keeps where it stands, the record that
is read satisfies. -/
theorem ofText_keeps_at {text : String} {value : τ}
    (keeps : ∀ field place, record.Stands field place (Document.ofText text.toList).reading →
      ∀ before after, holds before → field.read place before = .ok after → holds after)
    (blank : holds record.blank) (read : record.ofText text = .ok value) : holds value := by
  obtain ⟨found, reads, rest⟩ := bind_eq_ok_iff.mp read
  have kept : holds found := by
    generalize (Document.ofText text.toList).reading = reading at keeps reads
    unfold ofReading at reads
    split at reads
    · refine Reading.parts_keeps_at (fun n reader place chosen here => ?_) blank reads
      obtain ⟨field, stands, rfl⟩ := Option.map_eq_some_iff.mp (List.getElem?_map ▸ chosen)
      exact keeps field place ⟨n, stands, here⟩
    · exact readEntries_keeps (fun field place member inside =>
        keeps field place ⟨member, inside⟩) blank reads
    · exact absurd reads (Reading.refuse_ne_ok _ _ _)
  split at rest
  · cases rest
  · cases rest
    exact kept

/-- Whether reading any field keeps a property. -/
def FieldsKeep (record : Record τ) (holds : τ → Prop) : Prop :=
  ∀ field ∈ record.fields, ∀ place before after, holds before →
    field.read place before = .ok after → holds after

/-- What the blank record satisfies and every field keeps, every record that is read
satisfies. -/
theorem ofText_keeps (keeps : record.FieldsKeep holds) (blank : holds record.blank)
    {text : String} {value : τ} (read : record.ofText text = .ok value) : holds value :=
  ofText_keeps_at (fun field place stands => keeps field stands.mem place) blank read

end Record

end InvertibleNet.Json
