import Tendril.Random.Source

/-!
# Key streams

Random words from a seed: the seed is spread over a key, the key and a block number are mixed by
additions, rotations and exclusive ors, and the mixed words follow one another without end. The
words of a stream depend on the key and their position only.
-/

namespace Tendril

namespace KeyStream

abbrev Key := Vector UInt32 8

abbrev Block := Vector UInt32 16

def rotateLeft (x : UInt32) (k : UInt32) : UInt32 := (x <<< k) ||| (x >>> (32 - k))

/-- Mixes four words of a block. -/
def quarterRound (a b c d : Fin 16) (v : Block) : Block :=
  let v := v.set a (v[a] + v[b])
  let v := v.set d (rotateLeft (v[d] ^^^ v[a]) 16)
  let v := v.set c (v[c] + v[d])
  let v := v.set b (rotateLeft (v[b] ^^^ v[c]) 12)
  let v := v.set a (v[a] + v[b])
  let v := v.set d (rotateLeft (v[d] ^^^ v[a]) 8)
  let v := v.set c (v[c] + v[d])
  v.set b (rotateLeft (v[b] ^^^ v[c]) 7)

/-- Mixes the columns of a block, then its diagonals. -/
def doubleRound (v : Block) : Block :=
  let v := quarterRound 0 4 8 12 v
  let v := quarterRound 1 5 9 13 v
  let v := quarterRound 2 6 10 14 v
  let v := quarterRound 3 7 11 15 v
  let v := quarterRound 0 5 10 15 v
  let v := quarterRound 1 6 11 12 v
  let v := quarterRound 2 7 8 13 v
  quarterRound 3 4 9 14 v

/-- What a block is before mixing: four fixed words, the key, the block's number in two words, and
two words that are zero. -/
def initialBlock (key : Key) (number : UInt64) : Block :=
  #v[0x61707865, 0x3320646e, 0x79622d32, 0x6b206574,
     key[0], key[1], key[2], key[3], key[4], key[5], key[6], key[7],
     number.toUInt32, (number >>> 32).toUInt32, 0, 0]

/-- Six double rounds, and the sum with what was there before. -/
def block (key : Key) (number : UInt64) : Block :=
  let start := initialBlock key number
  start.zipWith (· + ·) (Nat.repeat doubleRound 6 start)

/-- The word of 64 bits at a position of the stream: eight to a block, each from two words of which
the first is the low half. -/
def word (key : Key) (position : Nat) : UInt64 :=
  let v := block key (UInt64.ofNat (position / 8))
  let i : Fin 8 := Fin.ofNat 8 position
  let low : Fin 16 := ⟨2 * i.val, by omega⟩
  let high : Fin 16 := ⟨2 * i.val + 1, by omega⟩
  v[low].toUInt64 ||| (v[high].toUInt64 <<< 32)

/-- One step of the generator that spreads a seed. -/
def spread (s : UInt64) : UInt64 := s * 6364136223846793005 + 11634580027462260723

/-- The word of the key that a state of that generator gives. -/
def keyWord (s : UInt64) : UInt32 :=
  let x := (((s >>> 18) ^^^ s) >>> 27).toUInt32
  let r := (s >>> 59).toUInt32
  (x >>> r) ||| (x <<< ((32 - r) % 32))

/-- The key that a seed is spread over. -/
def keyOfSeed (seed : UInt64) : Key :=
  Vector.ofFn fun i => keyWord (Nat.repeat spread (i.val + 1) seed)

end KeyStream

/-- A place in the stream of a key. -/
structure KeyStream where
  key : KeyStream.Key
  position : Nat

namespace KeyStream

def ofSeed (seed : UInt64) : KeyStream := ⟨keyOfSeed seed, 0⟩

instance : WordSource KeyStream where
  draw s := (word s.key s.position, { s with position := s.position + 1 })

end KeyStream

end Tendril
