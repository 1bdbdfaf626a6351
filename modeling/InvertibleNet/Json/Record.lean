/-
# Records

A record is described by its fields: the name of each, how a place of a
document is read into it, and how it is written. The same description reads a
record from a map in any order of the keys, reads it from a list of all fields
in their order, and writes it as a map.

In a map, unknown keys are passed over, a known key may stand only once, and
missing fields are noticed at the end, in the order of the record.
-/

import InvertibleNet.Json.Reading
import InvertibleNet.Json.Value

namespace InvertibleNet.Json

namespace Reading

/-- What stands in a place, for a message. -/
def found : Reading → Except Fault Found
  | .null => .ok .null
  | .boolean value => .ok (.boolean value)
  | .number literal => (Number.ofText literal).map (·.found)
  | .string content => content.map .string
  | .list .. => .ok .sequence
  | .map .. => .ok .map
  | .broken strict _ => .error strict

/-- Refuse what stands in a place. -/
def refuse {α : Type} (place : Reading) (expected : Expectation) : Except Fault α :=
  match place.found with
  | .ok found => .error (.invalidType found expected)
  | .error fault => .error fault

/-- A natural number that fits a word. -/
def word (expected : Expectation) : Reading → Except Fault Nat
  | .number literal => do
      match ← Number.ofText literal with
      | .whole value => return value
      | .negative magnitude => throw (.invalidValue (.integer (-magnitude)) expected)
      | .real value => throw (.invalidType (.real value) expected)
  | other => other.refuse expected

def count (place : Reading) : Except Fault Nat := place.word .count

def bool : Reading → Except Fault Bool
  | .boolean value => .ok value
  | other => other.refuse .boolean

def double : Reading → Except Fault Double
  | .number literal => (Number.ofText literal).map (·.toDouble)
  | other => other.refuse .double

def single : Reading → Except Fault Single
  | .number literal => (Number.ofText literal).map (·.toSingle)
  | other => other.refuse .single

/-- A list of any length. -/
def sequence {α : Type} (item : Reading → Except Fault α) : Reading → Except Fault (List α)
  | .list items ending => do
      let values ← items.mapM item
      match ending with
      | none => return values
      | some stop => throw stop.fault
  | other => other.refuse .sequence

def counts (place : Reading) : Except Fault (List Nat) := place.sequence count

/-- A list of counts, or nothing. -/
def optionalCounts : Reading → Except Fault (Option (List Nat))
  | .null => .ok none
  | other => other.counts.map some

/-- Read the items of a list into the parts of a value, one reader to an item.
An item too few is a wrong length; anything behind the last item is a fault of
form. -/
def parts {τ : Type} (expected : Expectation) (ending : Option Break) :
    (readers : List (Reading → τ → Except Fault τ)) → (items : List Reading) →
    (index : Nat) → τ → Except Fault τ
  | [], [], _, value =>
      match ending with
      | none => .ok value
      | some stop => .error (if stop.afterComma then .malformed else stop.fault)
  | [], _ :: _, _, _ => .error .malformed
  | _ :: _, [], index, _ =>
      match ending with
      | none => .error (.invalidLength index expected)
      | some stop => .error stop.fault
  | reader :: readers, item :: items, index, value => do
      parts expected ending readers items (index + 1) (← reader item value)

end Reading

/-- A field of a record. -/
structure Field (τ : Type) where
  name : String
  required : Bool
  read : Reading → τ → Except Fault τ
  write : τ → Value

/-- The description of a record. Reading starts from the blank value, in which
every field that is not required has its default. -/
structure Record (τ : Type) where
  name : String
  fields : List (Field τ)
  blank : τ

namespace Record

variable {τ : Type}

/-- Read the entries of a map. -/
def readEntries (record : Record τ) (ending : Option Break) :
    List (Except Fault String × Reading) → (seen : List String) → τ → Except Fault τ
  | [], seen, value =>
      match ending with
      | some stop => .error stop.fault
      | none =>
          match record.fields.find? fun field => field.required && !seen.contains field.name with
          | some field => .error (.missingField field.name)
          | none => .ok value
  | (key, place) :: entries, seen, value => do
      let key ← key
      match record.fields.find? fun field => field.name == key with
      | none =>
          match place.skipFault? with
          | some fault => throw fault
          | none => record.readEntries ending entries seen value
      | some field =>
          if seen.contains key then throw (.duplicateField key)
          record.readEntries ending entries (key :: seen) (← field.read place value)

/-- Read a record from its place in a document. -/
def ofReading (record : Record τ) : Reading → Except Fault τ
  | .list items ending =>
      Reading.parts (.recordOf record.name record.fields.length) ending
        (record.fields.map (·.read)) items 0 record.blank
  | .map entries ending => record.readEntries ending entries [] record.blank
  | other => other.refuse (.record record.name)

/-- Read a record from a whole text. -/
def ofText (record : Record τ) (text : String) : Except Fault τ := do
  let document := Document.ofText text.toList
  let value ← record.ofReading document.reading
  if document.hasRest then throw .malformed
  return value

/-- Write a record. -/
def toValue (record : Record τ) (value : τ) : Value :=
  .map (record.fields.map fun field => (field.name, field.write value))

end Record

/-- A single-precision number as a document. -/
def Value.single (value : Single) : Value :=
  match value.documentText? with
  | some literal => .number literal
  | none => .null

/-- A double-precision number as a document. -/
def Value.double (value : Double) : Value :=
  match value.documentText? with
  | some literal => .number literal
  | none => .null

end InvertibleNet.Json
