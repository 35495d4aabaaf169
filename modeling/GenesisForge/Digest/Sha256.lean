import GenesisForge.Bytes

/-!
# SHA-256

The message is padded to whole blocks of 64 bytes, every block is expanded to
64 schedule words, and 64 rounds mix the words into eight registers.
-/

namespace GenesisForge

namespace Sha256

/-- The eight words of the chaining value. -/
structure Registers where
  a : UInt32
  b : UInt32
  c : UInt32
  d : UInt32
  e : UInt32
  f : UInt32
  g : UInt32
  h : UInt32

def roundConstants : Array UInt32 := #[
  0x428a2f98, 0x71374491, 0xb5c0fbcf, 0xe9b5dba5, 0x3956c25b, 0x59f111f1, 0x923f82a4, 0xab1c5ed5,
  0xd807aa98, 0x12835b01, 0x243185be, 0x550c7dc3, 0x72be5d74, 0x80deb1fe, 0x9bdc06a7, 0xc19bf174,
  0xe49b69c1, 0xefbe4786, 0x0fc19dc6, 0x240ca1cc, 0x2de92c6f, 0x4a7484aa, 0x5cb0a9dc, 0x76f988da,
  0x983e5152, 0xa831c66d, 0xb00327c8, 0xbf597fc7, 0xc6e00bf3, 0xd5a79147, 0x06ca6351, 0x14292967,
  0x27b70a85, 0x2e1b2138, 0x4d2c6dfc, 0x53380d13, 0x650a7354, 0x766a0abb, 0x81c2c92e, 0x92722c85,
  0xa2bfe8a1, 0xa81a664b, 0xc24b8b70, 0xc76c51a3, 0xd192e819, 0xd6990624, 0xf40e3585, 0x106aa070,
  0x19a4c116, 0x1e376c08, 0x2748774c, 0x34b0bcb5, 0x391c0cb3, 0x4ed8aa4a, 0x5b9cca4f, 0x682e6ff3,
  0x748f82ee, 0x78a5636f, 0x84c87814, 0x8cc70208, 0x90befffa, 0xa4506ceb, 0xbef9a3f7, 0xc67178f2]

/-- The chaining value before the first block. -/
def initial : Registers :=
  ⟨0x6a09e667, 0xbb67ae85, 0x3c6ef372, 0xa54ff53a, 0x510e527f, 0x9b05688c, 0x1f83d9ab, 0x5be0cd19⟩

/-- Rotation to the right by `k` places, for `0 < k < 32`. -/
@[inline] def rotateRight (x : UInt32) (k : UInt32) : UInt32 :=
  (x >>> k) ||| (x <<< (32 - k))

/-- The big-endian word at byte `i`; bytes past the end count as zero. -/
@[inline] def wordAt (message : ByteArray) (i : Nat) : UInt32 :=
  let byte (j : Nat) : UInt32 := if h : j < message.size then message[j].toUInt32 else 0
  (byte i <<< 24) ||| (byte (i + 1) <<< 16) ||| (byte (i + 2) <<< 8) ||| byte (i + 3)

/-- The sixteen words of the block that starts at byte `start`. -/
def loadBlock (message : ByteArray) (start : Nat) : Nat → Array UInt32 → Array UInt32
  | 0, words => words
  | count + 1, words =>
    loadBlock message start count (words.push (wordAt message (start + 4 * words.size)))

/-- Extends the schedule by `count` words, each made of four earlier ones. -/
def extendSchedule : Nat → Array UInt32 → Array UInt32
  | 0, words => words
  | count + 1, words =>
    let t := words.size
    let w15 := words.getD (t - 15) 0
    let w2 := words.getD (t - 2) 0
    let s0 := rotateRight w15 7 ^^^ rotateRight w15 18 ^^^ (w15 >>> 3)
    let s1 := rotateRight w2 17 ^^^ rotateRight w2 19 ^^^ (w2 >>> 10)
    extendSchedule count (words.push (words.getD (t - 16) 0 + s0 + words.getD (t - 7) 0 + s1))

/-- `count` rounds, ending with round 63. -/
def mix (words : Array UInt32) : Nat → UInt32 → UInt32 → UInt32 → UInt32 → UInt32 → UInt32 →
    UInt32 → UInt32 → Registers
  | 0, a, b, c, d, e, f, g, h => ⟨a, b, c, d, e, f, g, h⟩
  | count + 1, a, b, c, d, e, f, g, h =>
    let t := 63 - count
    let s1 := rotateRight e 6 ^^^ rotateRight e 11 ^^^ rotateRight e 25
    let choice := (e &&& f) ^^^ ((~~~ e) &&& g)
    let t1 := h + s1 + choice + roundConstants.getD t 0 + words.getD t 0
    let s0 := rotateRight a 2 ^^^ rotateRight a 13 ^^^ rotateRight a 22
    let majority := (a &&& b) ^^^ (a &&& c) ^^^ (b &&& c)
    mix words count (t1 + s0 + majority) a b c (d + t1) e f g

/-- The chaining value after the block that starts at byte `start`. -/
def compress (r : Registers) (message : ByteArray) (start : Nat) : Registers :=
  let words := extendSchedule 48 (loadBlock message start 16 (Array.mkEmpty 64))
  let m := mix words 64 r.a r.b r.c r.d r.e r.f r.g r.h
  ⟨r.a + m.a, r.b + m.b, r.c + m.c, r.d + m.d, r.e + m.e, r.f + m.f, r.g + m.g, r.h + m.h⟩

/-- The chaining value after `count` blocks from byte `start` on. -/
def compressAll (message : ByteArray) : Nat → Nat → Registers → Registers
  | 0, _, r => r
  | count + 1, start, r => compressAll message count (start + 64) (compress r message start)

/-- The message followed by a one bit, zeros up to the next multiple of 64
bytes with eight to spare, and its length in bits as a big-endian word. -/
def pad (message : ByteArray) : ByteArray :=
  let zeros := (119 - message.size % 64) % 64
  Bytes.appendFill 0 zeros (message.push 0x80) ++ Bytes.bigEndian 8 (8 * message.size)

/-- Appends a word, most significant byte first. -/
def pushWord (out : ByteArray) (w : UInt32) : ByteArray :=
  (((out.push (w >>> 24).toUInt8).push (w >>> 16).toUInt8).push (w >>> 8).toUInt8).push w.toUInt8

/-- The bytes of a chaining value. -/
def Registers.toRoot (r : Registers) : Root :=
  let out := [r.a, r.b, r.c, r.d, r.e, r.f, r.g, r.h].foldl pushWord ByteArray.empty
  ⟨out, by simp [out, pushWord]⟩

end Sha256

/-- The SHA-256 digest of a byte string. -/
def sha256 (message : ByteArray) : Root :=
  let padded := Sha256.pad message
  (Sha256.compressAll padded (padded.size / 64) 0 Sha256.initial).toRoot

end GenesisForge
