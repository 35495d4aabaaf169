import GenesisForge.Instances

/-!
# Byte strings

Byte strings of a length fixed by their type, the little-endian words that
every encoding of this library is made of, and the byte strings made of one
repeated byte.
-/

namespace GenesisForge

/-- A byte string of exactly `n` bytes. -/
structure FixedBytes (n : Nat) where
  /-- The bytes themselves. -/
  bytes : ByteArray
  size_eq : bytes.size = n
deriving DecidableEq

/-- Roots, block hashes, seeds and credentials all have 32 bytes. -/
abbrev Root := FixedBytes 32

namespace Bytes

def appendFill (byte : UInt8) : Nat → ByteArray → ByteArray
  | 0, out => out
  | count + 1, out => appendFill byte count (out.push byte)

/-- The byte string of `count` copies of `byte`. -/
def fill (byte : UInt8) (count : Nat) : ByteArray :=
  appendFill byte count ByteArray.empty

/-- Appends the lowest `width` base-256 digits of `n`, least significant first. -/
def appendLittleEndian : Nat → Nat → ByteArray → ByteArray
  | 0, _, out => out
  | width + 1, n, out => appendLittleEndian width (n / 256) (out.push (n % 256).toUInt8)

/-- The lowest `width` base-256 digits of `n`, least significant first. -/
def littleEndian (width n : Nat) : ByteArray :=
  appendLittleEndian width n ByteArray.empty

/-- The number whose base-256 digits are `bytes`, most significant first. -/
def bigEndianValue (bytes : ByteArray) : Nat :=
  bytes.foldl (fun n byte => 256 * n + byte.toNat) 0

/-- The number whose base-256 digits are `bytes`, least significant first. -/
def littleEndianValue (bytes : ByteArray) : Nat :=
  bytes.toList.foldr (fun byte n => 256 * n + byte.toNat) 0

/-- Appends the base-256 digits of `n`, most significant first, in `width` places. -/
def bigEndian (width n : Nat) : ByteArray :=
  ByteArray.mk (littleEndian width n).data.reverse

/-- The byte strings of a list, one after the other. -/
def concat (parts : List ByteArray) : ByteArray :=
  parts.foldl (· ++ ·) ByteArray.empty

theorem size_appendFill (byte : UInt8) (count : Nat) (out : ByteArray) :
    (appendFill byte count out).size = out.size + count := by
  induction count generalizing out with
  | zero => rfl
  | succ count ih => simp [appendFill, ih]; omega

theorem size_fill (byte : UInt8) (count : Nat) : (fill byte count).size = count := by
  simp [fill, size_appendFill]

theorem size_appendLittleEndian (width n : Nat) (out : ByteArray) :
    (appendLittleEndian width n out).size = out.size + width := by
  induction width generalizing n out with
  | zero => rfl
  | succ width ih => simp [appendLittleEndian, ih]; omega

theorem size_littleEndian (width n : Nat) : (littleEndian width n).size = width := by
  simp [littleEndian, size_appendLittleEndian]

end Bytes

namespace FixedBytes

/-- `bytes` as a byte string of length `n`, if it has that length. -/
def ofBytes? (n : Nat) (bytes : ByteArray) : Option (FixedBytes n) :=
  if h : bytes.size = n then some ⟨bytes, h⟩ else none

/-- The byte string of `n` copies of `byte`. -/
def fill (n : Nat) (byte : UInt8) : FixedBytes n :=
  ⟨Bytes.fill byte n, Bytes.size_fill byte n⟩

def zero (n : Nat) : FixedBytes n := fill n 0

instance (n : Nat) : Inhabited (FixedBytes n) := ⟨zero n⟩

/-- The byte string of length `n` whose byte at index `i` is `f i`. -/
def ofFn (n : Nat) (f : Nat → UInt8) : FixedBytes n :=
  ⟨ByteArray.mk (Array.ofFn fun i : Fin n => f i), by simp [ByteArray.size]⟩

/-- The lowest `n` base-256 digits of `value`, least significant first. -/
def littleEndian (n value : Nat) : FixedBytes n :=
  ⟨Bytes.littleEndian n value, Bytes.size_littleEndian n value⟩

/-- The lowest `n` base-256 digits of `value`, most significant first. -/
def bigEndian (n value : Nat) : FixedBytes n :=
  ⟨Bytes.bigEndian n value, by
    have h : (Bytes.littleEndian n value).data.size = n := Bytes.size_littleEndian n value
    simp [Bytes.bigEndian, ByteArray.size, h]⟩

end FixedBytes

end GenesisForge
