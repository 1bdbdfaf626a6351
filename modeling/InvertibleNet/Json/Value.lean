/-
# Writing documents

A document that the library writes itself, and its two texts: one without any
blanks, and one with every item and entry on a line of its own, indented by two
blanks to a level. An empty list stays on its line.
-/

namespace InvertibleNet.Json

/-- A document to be written. Numbers are already text. -/
inductive Value where
  | null
  | boolean (value : Bool)
  | number (literal : String)
  | list (items : List Value)
  | map (entries : List (String × Value))

namespace Value

mutual

/-- The text without blanks. -/
def compact : Value → String
  | .null => "null"
  | .boolean value => if value then "true" else "false"
  | .number literal => literal
  | .list items => "[" ++ ",".intercalate (compactItems items) ++ "]"
  | .map entries => "\x7b" ++ ",".intercalate (compactEntries entries) ++ "\x7d"

def compactItems : List Value → List String
  | [] => []
  | item :: items => item.compact :: compactItems items

def compactEntries : List (String × Value) → List String
  | [] => []
  | (key, value) :: entries => ("\"" ++ key ++ "\":" ++ value.compact) :: compactEntries entries

end

/-- The start of a line at a level. -/
def lineStart (level : Nat) : String := "\n" ++ String.ofList (List.replicate (2 * level) ' ')

mutual

/-- The text with a line for every part, at a level of indentation. -/
def indented (level : Nat) : Value → String
  | .null => "null"
  | .boolean value => if value then "true" else "false"
  | .number literal => literal
  | .list [] => "[]"
  | .list items =>
      "[" ++ ",".intercalate (indentedItems (level + 1) items) ++ lineStart level ++ "]"
  | .map [] => "\x7b\x7d"
  | .map entries =>
      "\x7b" ++ ",".intercalate (indentedEntries (level + 1) entries) ++ lineStart level ++ "\x7d"

def indentedItems (level : Nat) : List Value → List String
  | [] => []
  | item :: items => (lineStart level ++ item.indented level) :: indentedItems level items

def indentedEntries (level : Nat) : List (String × Value) → List String
  | [] => []
  | (key, value) :: entries =>
      (lineStart level ++ "\"" ++ key ++ "\": " ++ value.indented level) ::
        indentedEntries level entries

end

/-- The text with a line for every part. -/
def pretty (value : Value) : String := value.indented 0

/-- A count as a document. -/
def count (value : Nat) : Value := .number (toString value)

/-- A list of counts as a document. -/
def counts (values : List Nat) : Value := .list (values.map count)

end Value

end InvertibleNet.Json
