/-
# Reading documents

A text is read as far as it goes. The result is a tree in which a broken place
is kept where it was met, in the order of the text: whoever walks the tree from
its start meets the faults of form in the same order as the faults of content,
and the first one decides.

A place can be read for its value or only be passed over. Passing over is more
lenient: it does not ask whether an escape stands for a character, and it takes
a number that breaks off for a fault of form.
-/

import InvertibleNet.Json.Number

namespace InvertibleNet.Json

/-- Where a list or a map breaks off. -/
structure Break where
  fault : Fault
  /-- Whether the text breaks off behind a comma. -/
  afterComma : Bool
  deriving DecidableEq, Repr

/-- A document as far as it could be read. -/
inductive Reading where
  | null
  | boolean (value : Bool)
  | number (literal : List Char)
  | string (content : Except Fault String)
  | list (items : List Reading) (ending : Option Break)
  | map (entries : List (Except Fault String × Reading)) (ending : Option Break)
  | broken (strict lenient : Fault)

/-- Blanks between the parts of a document. -/
def isBlank (c : Char) : Bool := c = ' ' || c = '\n' || c = '\t' || c = '\r'

def skipBlanks (text : List Char) : List Char := text.dropWhile isBlank

/-- The rest of a text behind the rest of a word. -/
def afterWord : (word text : List Char) → Except Fault (List Char)
  | [], text => .ok text
  | _ :: _, [] => .error .endOfText
  | expected :: word, c :: text => if c = expected then afterWord word text else .error .malformed

/-! ## Strings -/

def hexDigit? (c : Char) : Option Nat :=
  if '0' ≤ c ∧ c ≤ '9' then some (c.toNat - '0'.toNat)
  else if 'a' ≤ c ∧ c ≤ 'f' then some (c.toNat - 'a'.toNat + 10)
  else if 'A' ≤ c ∧ c ≤ 'F' then some (c.toNat - 'A'.toNat + 10)
  else none

/-- The code unit of four hexadecimal digits. -/
def codeUnit? (first second third fourth : Char) : Option Nat := do
  let a ← hexDigit? first
  let b ← hexDigit? second
  let c ← hexDigit? third
  let d ← hexDigit? fourth
  return ((a * 16 + b) * 16 + c) * 16 + d

/-- The fault of an escape with too few characters behind it: the text ends
only if it has fewer than four bytes left. -/
def shortEscape (text : List Char) : Fault :=
  if Count.total (text.map Char.utf8Size) < 4 then .endOfText else .malformed

/-- The character of a simple escape. -/
def simpleEscape? : Char → Option Char
  | '"' => some '"'
  | '\\' => some '\\'
  | '/' => some '/'
  | 'b' => some '\x08'
  | 'f' => some '\x0c'
  | 'n' => some '\n'
  | 'r' => some '\r'
  | 't' => some '\t'
  | _ => none

/-- The rest of a text behind a string whose opening quote is already read. -/
def afterString : List Char → Except Fault (List Char)
  | [] => .error .endOfText
  | '"' :: rest => .ok rest
  | '\\' :: 'u' :: a :: b :: c :: d :: rest =>
      match codeUnit? a b c d with
      | some _ => afterString rest
      | none => .error .malformed
  | '\\' :: 'u' :: rest => .error (shortEscape rest)
  | '\\' :: c :: rest =>
      match simpleEscape? c with
      | some _ => afterString rest
      | none => .error .malformed
  | '\\' :: [] => .error .endOfText
  | c :: rest => if c.toNat < 0x20 then .error .malformed else afterString rest

/-- Whether a code unit is the first half of a pair. -/
def isLeading (unit : Nat) : Bool := 0xd800 ≤ unit && unit < 0xdc00

/-- Whether a code unit is the second half of a pair. -/
def isTrailing (unit : Nat) : Bool := 0xdc00 ≤ unit && unit < 0xe000

/-- The characters of a string whose opening quote is already read. A code unit
that is half of a pair needs its other half. -/
def stringContent : List Char → Except Fault (List Char)
  | [] => .error .endOfText
  | '"' :: _ => .ok []
  | '\\' :: 'u' :: a :: b :: c :: d :: rest =>
      match codeUnit? a b c d with
      | none => .error .malformed
      | some unit =>
          if isTrailing unit then .error .malformed
          else if isLeading unit then
            match rest with
            | '\\' :: 'u' :: e :: f :: g :: h :: behind =>
                match codeUnit? e f g h with
                | none => .error .malformed
                | some second =>
                    if isTrailing second then
                      (stringContent behind).map
                        (Char.ofNat ((unit - 0xd800) * 1024 + (second - 0xdc00) + 0x10000) :: ·)
                    else .error .malformed
            | '\\' :: 'u' :: behind => .error (shortEscape behind)
            | [] => .error .endOfText
            | '\\' :: [] => .error .endOfText
            | _ => .error .malformed
          else (stringContent rest).map (Char.ofNat unit :: ·)
  | '\\' :: 'u' :: rest => .error (shortEscape rest)
  | '\\' :: c :: rest =>
      match simpleEscape? c with
      | some escaped => (stringContent rest).map (escaped :: ·)
      | none => .error .malformed
  | '\\' :: [] => .error .endOfText
  | c :: rest =>
      if c.toNat < 0x20 then .error .malformed else (stringContent rest).map (c :: ·)

/-- The text of a string whose opening quote is already read. -/
def stringText (text : List Char) : Except Fault String := (stringContent text).map String.ofList

/-! ## Numbers -/

/-- A fault for readers of values and one for readers that pass over. -/
structure Breakage where
  strict : Fault
  lenient : Fault

/-- The breakage of a number: the text ends, or something else stands where a
digit has to be. -/
def numberBreakage (text : List Char) : Breakage :=
  ⟨if text.isEmpty then .endOfText else .malformed, .malformed⟩

/-- The whole digits at the start of a text; a zero stands alone. -/
def wholeDigits (text : List Char) : Except Breakage (List Char × List Char) :=
  let digits := text.takeWhile Decimal.isDigit
  let rest := text.dropWhile Decimal.isDigit
  match digits with
  | [] => .error (numberBreakage text)
  | '0' :: _ :: _ => .error ⟨.malformed, .malformed⟩
  | _ => .ok (digits, rest)

/-- The point and the digits behind it, if a text starts with a point. -/
def fractionDigits : List Char → Except Breakage (List Char × List Char)
  | '.' :: text =>
      let digits := text.takeWhile Decimal.isDigit
      let rest := text.dropWhile Decimal.isDigit
      if digits.isEmpty then .error (numberBreakage rest) else .ok ('.' :: digits, rest)
  | text => .ok ([], text)

/-- The digits behind an exponent mark and its sign. -/
def markedDigits (mark : List Char) (text : List Char) : Except Breakage (List Char × List Char) :=
  let digits := text.takeWhile Decimal.isDigit
  let rest := text.dropWhile Decimal.isDigit
  if digits.isEmpty then .error (numberBreakage rest) else .ok (mark ++ digits, rest)

/-- The exponent, if a text starts with its mark. -/
def exponentDigits (text : List Char) : Except Breakage (List Char × List Char) :=
  match text with
  | [] => .ok ([], [])
  | mark :: rest =>
      if mark = 'e' ∨ mark = 'E' then
        match rest with
        | '+' :: digits => markedDigits [mark, '+'] digits
        | '-' :: digits => markedDigits [mark, '-'] digits
        | digits => markedDigits [mark] digits
      else .ok ([], text)

/-- The number literal at the start of a text, and the rest. -/
def numberText (text : List Char) : Except Breakage (List Char × List Char) := do
  let (sign, unsigned) := match text with
    | '-' :: rest => (['-'], rest)
    | rest => ([], rest)
  let (whole, afterWhole) ← wholeDigits unsigned
  let (fraction, afterFraction) ← fractionDigits afterWhole
  let (exponent, rest) ← exponentDigits afterFraction
  return (sign ++ whole ++ fraction ++ exponent, rest)

/-! ## Values -/

/-- A word that stands for a value. -/
def wordReading (word text : List Char) (value : Reading) : Reading × List Char :=
  match afterWord word text with
  | .ok rest => (value, rest)
  | .error fault => (.broken fault fault, [])

/-- A string, its opening quote already read. -/
def stringReading (text : List Char) : Reading × List Char :=
  match afterString text with
  | .ok rest => (.string (stringText text), rest)
  | .error lenient =>
      match stringText text with
      | .ok _ => (.broken lenient lenient, [])
      | .error strict => (.broken strict lenient, [])

/-- A number. -/
def numberReading (text : List Char) : Reading × List Char :=
  match numberText text with
  | .ok (literal, rest) => (.number literal, rest)
  | .error breakage => (.broken breakage.strict breakage.lenient, [])

/-- The key of an entry, its opening quote already read, and the text behind
the colon. A key that breaks off ends the map with the fault of a reader of
values; a key without a colon has a broken value. -/
inductive KeyReading where
  | complete (key : Except Fault String) (rest : List Char)
  | broken (key : Except Fault String) (strict lenient : Fault)

def keyReading (text : List Char) : KeyReading :=
  match afterString text with
  | .error lenient =>
      match stringText text with
      | .ok _ => .broken (.error lenient) lenient lenient
      | .error strict => .broken (.error strict) strict lenient
  | .ok rest =>
      match skipBlanks rest with
      | ':' :: behind => .complete (stringText text) behind
      | [] => .broken (stringText text) .endOfText .endOfText
      | _ => .broken (stringText text) .malformed .malformed

mutual

/-- The value at the start of a text, and the rest behind it. The first argument
bounds the number of steps. -/
def readValue : Nat → List Char → Reading × List Char
  | 0, _ => (.broken .malformed .malformed, [])
  | steps + 1, text =>
      match skipBlanks text with
      | [] => (.broken .endOfText .endOfText, [])
      | 'n' :: rest => wordReading ['u', 'l', 'l'] rest .null
      | 't' :: rest => wordReading ['r', 'u', 'e'] rest (.boolean true)
      | 'f' :: rest => wordReading ['a', 'l', 's', 'e'] rest (.boolean false)
      | '"' :: rest => stringReading rest
      | '[' :: rest =>
          match skipBlanks rest with
          | ']' :: behind => (.list [] none, behind)
          | [] => (.list [] (some ⟨.endOfText, false⟩), [])
          | inside =>
              let (items, ending, behind) := readItems steps inside
              (.list items ending, behind)
      | '\x7b' :: rest =>
          match skipBlanks rest with
          | '\x7d' :: behind => (.map [] none, behind)
          | '"' :: inside =>
              let (entries, ending, behind) := readEntries steps inside
              (.map entries ending, behind)
          | [] => (.map [] (some ⟨.endOfText, false⟩), [])
          | _ => (.map [] (some ⟨.malformed, false⟩), [])
      | c :: rest =>
          if c = '-' || Decimal.isDigit c then numberReading (c :: rest)
          else (.broken .malformed .malformed, [])

/-- The items of a list from one item on. -/
def readItems : Nat → List Char → List Reading × Option Break × List Char
  | 0, _ => ([], some ⟨.malformed, false⟩, [])
  | steps + 1, text =>
      let (item, rest) := readValue steps text
      match skipBlanks rest with
      | ']' :: behind => ([item], none, behind)
      | ',' :: behind =>
          match skipBlanks behind with
          | [] => ([item], some ⟨.endOfText, true⟩, [])
          | ']' :: _ => ([item], some ⟨.malformed, true⟩, [])
          | inside =>
              let (items, ending, after) := readItems steps inside
              (item :: items, ending, after)
      | [] => ([item], some ⟨.endOfText, false⟩, [])
      | _ => ([item], some ⟨.malformed, false⟩, [])

/-- The entries of a map from one key on, its opening quote already read. -/
def readEntries : Nat → List Char →
    List (Except Fault String × Reading) × Option Break × List Char
  | 0, _ => ([], some ⟨.malformed, false⟩, [])
  | steps + 1, text =>
      match keyReading text with
      | .broken key strict lenient => ([(key, .broken strict lenient)], none, [])
      | .complete key behindColon =>
          let (value, rest) := readValue steps behindColon
          match skipBlanks rest with
          | '\x7d' :: behind => ([(key, value)], none, behind)
          | ',' :: behind =>
              match skipBlanks behind with
              | '"' :: inside =>
                  let (entries, ending, after) := readEntries steps inside
                  ((key, value) :: entries, ending, after)
              | [] => ([(key, value)], some ⟨.endOfText, true⟩, [])
              | _ => ([(key, value)], some ⟨.malformed, true⟩, [])
          | [] => ([(key, value)], some ⟨.endOfText, false⟩, [])
          | _ => ([(key, value)], some ⟨.malformed, false⟩, [])

end

mutual

/-- The fault that passing over a value meets first, if there is one. -/
def Reading.skipFault? : Reading → Option Fault
  | .list items ending => (skipItems? items).or (ending.map (·.fault))
  | .map entries ending => (skipEntries? entries).or (ending.map (·.fault))
  | .broken _ lenient => some lenient
  | _ => none

def skipItems? : List Reading → Option Fault
  | [] => none
  | item :: items => item.skipFault?.or (skipItems? items)

def skipEntries? : List (Except Fault String × Reading) → Option Fault
  | [] => none
  | (_, value) :: entries => value.skipFault?.or (skipEntries? entries)

end

/-- A whole document: what was read, and whether anything but blanks follows. -/
structure Document where
  reading : Reading
  hasRest : Bool

/-- Read a text. Twice its length bounds the steps, because every second step
takes a character off. -/
def Document.ofText (text : List Char) : Document :=
  let (reading, rest) := readValue (2 * text.length + 2) text
  ⟨reading, !(skipBlanks rest).isEmpty⟩

end InvertibleNet.Json
