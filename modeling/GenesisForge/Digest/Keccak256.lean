import GenesisForge.Bytes

/-!
# Keccak-256

A sponge over a state of 25 words of 64 bits. Blocks of 136 bytes are absorbed
one after the other, with a permutation of 24 rounds behind each, and the
digest is the first 32 bytes of the state. The message is filled up to whole
blocks with a one bit, zeros, and a one bit at the very end.
-/

namespace GenesisForge

namespace Keccak

/-- Bytes that a block has. -/
def blockLength : Nat := 136

def roundConstants : List UInt64 := [
  0x0000000000000001, 0x0000000000008082, 0x800000000000808a, 0x8000000080008000,
  0x000000000000808b, 0x0000000080000001, 0x8000000080008081, 0x8000000000008009,
  0x000000000000008a, 0x0000000000000088, 0x0000000080008009, 0x000000008000000a,
  0x000000008000808b, 0x800000000000008b, 0x8000000000008089, 0x8000000000008003,
  0x8000000000008002, 0x8000000000000080, 0x000000000000800a, 0x800000008000000a,
  0x8000000080008081, 0x8000000000008080, 0x0000000080000001, 0x8000000080008008]

/-- The rotations of the words, in the order in which the words are moved. -/
def rotations : List UInt64 :=
  [1, 3, 6, 10, 15, 21, 28, 36, 45, 55, 2, 14, 27, 41, 56, 8, 25, 43, 62, 18, 39, 61, 20, 44]

/-- The places that the words are moved to, the first one coming from place 1. -/
def places : List Nat :=
  [10, 7, 11, 17, 18, 3, 5, 16, 8, 21, 24, 4, 15, 23, 19, 13, 12, 2, 20, 14, 22, 9, 6, 1]

/-- Rotation to the left by `k` places, for `0 < k < 64`. -/
@[inline] def rotateLeft (x k : UInt64) : UInt64 :=
  (x <<< k) ||| (x >>> (64 - k))

@[inline] def word (state : Array UInt64) (i : Nat) : UInt64 :=
  state.getD i 0

/-- Adds to every word the parities of two columns. -/
def addParities (state : Array UInt64) : Array UInt64 :=
  let parity (x : Nat) : UInt64 :=
    word state x ^^^ word state (x + 5) ^^^ word state (x + 10) ^^^ word state (x + 15) ^^^
      word state (x + 20)
  let parities := (Array.range 5).map parity
  state.mapIdx fun i w =>
    w ^^^ word parities ((i + 4) % 5) ^^^ rotateLeft (word parities ((i + 1) % 5)) 1

/-- Moves the words around one cycle of places, each of them rotated. -/
def moveWords : List UInt64 → List Nat → UInt64 → Array UInt64 → Array UInt64
  | rotation :: rotations, place :: places, carried, state =>
    moveWords rotations places (word state place)
      (state.setIfInBounds place (rotateLeft carried rotation))
  | _, _, _, state => state

/-- Mixes each word with the two behind it in its row. -/
def mixRows (state : Array UInt64) : Array UInt64 :=
  state.mapIdx fun i w =>
    let row := i - i % 5
    w ^^^ ((~~~ word state (row + (i + 1) % 5)) &&& word state (row + (i + 2) % 5))

def round (state : Array UInt64) (constant : UInt64) : Array UInt64 :=
  let state := addParities state
  let state := mixRows (moveWords rotations places (word state 1) state)
  state.setIfInBounds 0 (word state 0 ^^^ constant)

def permute (state : Array UInt64) : Array UInt64 :=
  roundConstants.foldl round state

/-- The little-endian word at byte `i` of a message. -/
def wordAt (message : ByteArray) (i : Nat) : UInt64 :=
  UInt64.ofNat (Bytes.littleEndianValue (message.extract i (i + 8)))

/-- Absorbs `count` blocks from byte `start` on. -/
def absorb (message : ByteArray) : Nat → Nat → Array UInt64 → Array UInt64
  | 0, _, state => state
  | count + 1, start, state =>
    let mixed := state.mapIdx fun i w =>
      if i < blockLength / 8 then w ^^^ wordAt message (start + 8 * i) else w
    absorb message count (start + blockLength) (permute mixed)

/-- The message filled up to whole blocks. -/
def pad (message : ByteArray) : ByteArray :=
  let missing := blockLength - message.size % blockLength
  if missing = 1 then message.push 0x81
  else (Bytes.appendFill 0 (missing - 2) (message.push 0x01)).push 0x80

end Keccak

/-- The Keccak-256 digest of a byte string. -/
def keccak256 (message : ByteArray) : Root :=
  let padded := Keccak.pad message
  let state := Keccak.absorb padded (padded.size / Keccak.blockLength) 0 (Array.replicate 25 0)
  .ofFn 32 fun i => (Keccak.word state (i / 8) >>> (8 * (i % 8)).toUInt64).toUInt8

end GenesisForge
