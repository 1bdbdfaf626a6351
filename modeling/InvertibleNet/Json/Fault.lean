/-
# What can be wrong with a document

A document is refused for its form, because it ends too early, or because what
stands in some place is not what belongs there. The last kind says what was
found and what was expected.
-/

import InvertibleNet.Decimal.Layout
import InvertibleNet.Text.Quoted

namespace InvertibleNet.Json

/-- What stands in a place of a document, as a message names it. -/
inductive Found where
  | null
  | boolean (value : Bool)
  | integer (value : Int)
  | real (value : Double)
  | string (value : String)
  | sequence
  | map
  deriving DecidableEq, Repr

/-- What belongs in a place of a document. -/
inductive Expectation where
  | count
  | seed
  | single
  | double
  | boolean
  | sequence
  | arrayOf (length : Nat)
  | record (name : String)
  | recordOf (name : String) (fields : Nat)
  deriving DecidableEq, Repr

/-- Why a document is refused. -/
inductive Fault where
  | malformed
  | endOfText
  | missingField (name : String)
  | duplicateField (name : String)
  | invalidType (found : Found) (expected : Expectation)
  | invalidValue (found : Found) (expected : Expectation)
  | invalidLength (length : Nat) (expected : Expectation)
  deriving DecidableEq, Repr

def Found.text : Found → String
  | .null => "null"
  | .boolean value => s!"boolean `{value}`"
  | .integer value => s!"integer `{value}`"
  | .real value => "floating point `" ++ value.documentText?.getD "null" ++ "`"
  | .string value => s!"string {Text.quoted value}"
  | .sequence => "sequence"
  | .map => "map"

def Expectation.text : Expectation → String
  | .count => "usize"
  | .seed => "u64"
  | .single => "f32"
  | .double => "f64"
  | .boolean => "a boolean"
  | .sequence => "a sequence"
  | .arrayOf length => s!"an array of length {length}"
  | .record name => s!"struct {name}"
  | .recordOf name fields => s!"struct {name} with {fields} elements"

/-- The text of a fault. Faults of form are only named by their kind. -/
def Fault.message : Fault → String
  | .malformed => "<syntax>"
  | .endOfText => "<eof>"
  | .missingField name => s!"missing field `{name}`"
  | .duplicateField name => s!"duplicate field `{name}`"
  | .invalidType found expected => s!"invalid type: {found.text}, expected {expected.text}"
  | .invalidValue found expected => s!"invalid value: {found.text}, expected {expected.text}"
  | .invalidLength length expected => s!"invalid length {length}, expected {expected.text}"

end InvertibleNet.Json
