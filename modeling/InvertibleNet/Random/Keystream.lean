/-
# Seeded word streams

An endless stream of 32-bit words for every 64-bit seed. The seed is first
stretched to a key by a linear generator whose state is permuted before it is
handed out; the words then come from the ChaCha block function with twelve
rounds, sixteen words to a block, each block numbered by a counter. A word
depends on nothing but the seed and its place, so a longer draw begins with
every shorter one.
-/

namespace InvertibleNet

/-- The eight words that a stream is keyed with. -/
structure StreamKey where
  words : Array UInt32

namespace StreamKey

/-- One step of the linear generator. -/
def advance (state : UInt64) : UInt64 := state * 6364136223846793005 + 11634580027462260723

/-- The word handed out for a state: some of its bits, rotated by its top five. -/
def output (state : UInt64) : UInt32 :=
  let mixed := ((state >>> 18 ^^^ state) >>> 27).toUInt32
  let turn := (state >>> 59).toUInt32
  mixed >>> turn ||| mixed <<< ((32 - turn) % 32)

/-- The words handed out after a state. -/
def expand (state : UInt64) : Nat → List UInt32
  | 0 => []
  | count + 1 =>
      let next := advance state
      output next :: expand next count

/-- The key of a seed. -/
def ofSeed (seed : UInt64) : StreamKey := ⟨(expand seed 8).toArray⟩

end StreamKey

namespace Keystream

/-- Bits turned left inside a word. -/
@[inline] def turnLeft (word amount : UInt32) : UInt32 :=
  word <<< amount ||| word >>> (32 - amount)

/-- Mix four words of a state. -/
def mix (state : Array UInt32) (i j k l : Nat) : Array UInt32 :=
  let a := state.getD i 0
  let b := state.getD j 0
  let c := state.getD k 0
  let d := state.getD l 0
  let a := a + b
  let d := turnLeft (d ^^^ a) 16
  let c := c + d
  let b := turnLeft (b ^^^ c) 12
  let a := a + b
  let d := turnLeft (d ^^^ a) 8
  let c := c + d
  let b := turnLeft (b ^^^ c) 7
  (((state.setIfInBounds i a).setIfInBounds j b).setIfInBounds k c).setIfInBounds l d

/-- One round over the columns of a state and one over its diagonals. -/
def doubleRound (state : Array UInt32) : Array UInt32 :=
  let state := mix state 0 4 8 12
  let state := mix state 1 5 9 13
  let state := mix state 2 6 10 14
  let state := mix state 3 7 11 15
  let state := mix state 0 5 10 15
  let state := mix state 1 6 11 12
  let state := mix state 2 7 8 13
  mix state 3 4 9 14

/-- The state that a block starts from. -/
def start (key : StreamKey) (counter : UInt64) : Array UInt32 :=
  let head : Array UInt32 := #[0x61707865, 0x3320646e, 0x79622d32, 0x6b206574]
  head ++ key.words ++ #[counter.toUInt32, (counter >>> 32).toUInt32, 0, 0]

/-- The sixteen words of a block: the mixed state added to the start. -/
def block (key : StreamKey) (counter : UInt64) : Array UInt32 :=
  let initial := start key counter
  Array.zipWith (· + ·) (Nat.repeat doubleRound 6 initial) initial

/-- The first words of the stream of a seed. -/
def words (seed : UInt64) (count : Nat) : Array UInt32 :=
  let key := StreamKey.ofSeed seed
  let blocks := Array.ofFn (n := (count + 15) / 16) fun index => block key index.val.toUInt64
  Array.ofFn (n := count) fun place => (blocks.getD (place / 16) #[]).getD (place % 16) 0

end Keystream

end InvertibleNet
