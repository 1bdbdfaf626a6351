/-
# Counts in 64-bit words

Channel counts, depths and sizes are natural numbers that have to fit one
64-bit word. The library computes with plain naturals and says at each step
what happens at the edge of the word: a sum or product either stays below the
limit, is cut off at the largest word, or has no value.
-/

namespace InvertibleNet.Count

/-- The first number that no word can hold. -/
def limit : Nat := 0x10000000000000000

/-- The first number that no signed word can hold. -/
def signedLimit : Nat := 0x8000000000000000

/-- A result that is cut off at the largest word. -/
def saturate (value : Nat) : Nat := min value (limit - 1)

/-- A result that exists only below the limit. -/
def checked (value : Nat) : Option Nat :=
  if value < limit then some value else none

/-- A power that exists only if it fits a word. The exponent itself has to fit
a 32-bit word; no larger power of a base above one fits anyway. -/
def checkedPower (base exponent : Nat) : Option Nat :=
  if exponent < 0x100000000 then
    if exponent ≤ 64 then checked (Nat.pow base exponent) else none
  else none

/-- The product of a list of counts, multiplied from left to right. It exists
only if every partial product fits, so a zero at the end does not undo an
overflow before it. -/
def checkedProduct (factors : List Nat) : Option Nat :=
  factors.foldlM (fun product factor => checked (product * factor)) 1

/-- The sum of a list of counts. -/
def total : List Nat → Nat
  | [] => 0
  | value :: values => value + total values

/-- A list of counts between brackets. -/
def listText (values : List Nat) : String :=
  "[" ++ ", ".intercalate (values.map toString) ++ "]"

theorem checked_eq_some_iff {value result : Nat} :
    checked value = some result ↔ value < limit ∧ value = result := by
  unfold checked
  split <;> simp [*]

theorem checked_eq_none_iff {value : Nat} : checked value = none ↔ limit ≤ value := by
  unfold checked
  split <;> simp <;> omega

end InvertibleNet.Count
