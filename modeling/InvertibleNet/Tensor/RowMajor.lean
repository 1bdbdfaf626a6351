/-
# Row-major arrays of any rank

A list of extents gives every place of a row-major array a position, one index
to an axis. Giving the same values other extents only renames the places.
Rearranging them moves values: the array is rebuilt in the order of its new
extents, each value fetched from the position it had before.

Where other extents are asked for, a zero among them stands for the extent at
the same place of the array as it is. Only an empty array can tell.
-/

namespace InvertibleNet.RowMajor

universe u

variable {α : Type u}

theorem mul_add_div_of_lt {extent index rest : Nat} (inside : rest < extent) :
    (index * extent + rest) / extent = index := by
  rw [Nat.mul_comm, Nat.mul_add_div (by omega), Nat.div_eq_of_lt inside, Nat.add_zero]

theorem mul_add_mod_of_lt {extent index rest : Nat} (inside : rest < extent) :
    (index * extent + rest) % extent = rest := by
  rw [Nat.mul_comm, Nat.mul_add_mod, Nat.mod_eq_of_lt inside]

theorem mul_add_lt_mul {count extent index rest : Nat} (first : index < count)
    (second : rest < extent) : index * extent + rest < count * extent := by
  calc index * extent + rest < index * extent + extent := by omega
    _ = (index + 1) * extent := by rw [Nat.add_mul, Nat.one_mul]
    _ ≤ count * extent := Nat.mul_le_mul_right extent first

/-- How many places an array of the given extents has. -/
def size : List Nat → Nat
  | [] => 1
  | extent :: rest => extent * size rest

/-- The place of a position, the last axis running fastest. -/
def place : List Nat → List Nat → Nat
  | _ :: extents, index :: position => index * size extents + place extents position
  | _, _ => 0

/-- The position of a place. -/
def position : List Nat → Nat → List Nat
  | [], _ => []
  | _ :: extents, index => index / size extents :: position extents (index % size extents)

/-- The extents that the requested ones stand for. A zero behind the last axis
of the array stands for nothing. -/
def resolveExtents? (current : List Nat) : (requested : List Nat) → Option (List Nat)
  | [] => some []
  | extent :: rest => do
      let here ← if extent = 0 then current.head? else some extent
      return here :: (← resolveExtents? current.tail rest)

/-- The extents that an array has when it is seen with the requested ones. They
have to hold as many values as before. -/
def reshaped? (current requested : List Nat) : Option (List Nat) := do
  let extents ← resolveExtents? current requested
  if size extents = size current then return extents else none

/-- The values of an array of the extents `before`, in the order of the extents
`after`; `source` says where the value at a new position was before. -/
def rearrange [Zero α] (before after : List Nat) (source : List Nat → List Nat)
    (values : Array α) : Array α :=
  Array.ofFn (n := size after) fun index =>
    values.getD (place before (source (position after index))) 0

end InvertibleNet.RowMajor
