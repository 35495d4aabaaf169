import GenesisForge.Bytes

/-!
# Bit collections

Bits are stored eight to a byte, the first of them in the lowest place. A bit
vector has a length that the configuration chooses, a bit list any length up
to a limit. The written form of a bit list ends in a one bit that marks where
the bits end.
-/

namespace GenesisForge.Ssz

namespace Bits

/-- The byte whose lowest places are `bits`. -/
def byteOf (bits : List Bool) : UInt8 :=
  bits.foldr (fun bit byte => 2 * byte + if bit then 1 else 0) 0

/-- Appends the bytes of `bits`, the last one filled up with zeros; `count`
bounds the number of bytes. -/
def appendPacked : Nat → List Bool → ByteArray → ByteArray
  | 0, _, out => out
  | count + 1, bits, out => appendPacked count (bits.drop 8) (out.push (byteOf (bits.take 8)))

/-- The bytes of `bits`, the last one filled up with zeros. -/
def pack (bits : List Bool) : ByteArray :=
  appendPacked ((bits.length + 7) / 8) bits ByteArray.empty

/-- The bytes of `bits` and a one bit after the last of them. -/
def packWithEnd (bits : List Bool) : ByteArray :=
  pack (bits ++ [true])

/-- The digits of the bits from index `at` on, an underscore after every fourth
of them but the last. -/
def digits : Nat → List Bool → List Char
  | _, [] => []
  | index, bit :: rest =>
    let digit := if bit then '1' else '0'
    if (index + 1) % 4 = 0 ∧ rest ≠ [] then digit :: '_' :: digits (index + 1) rest
    else digit :: digits (index + 1) rest

end Bits

/-- A sequence of bits whose length the configuration chooses. -/
structure Bitvector where
  bits : List Bool
deriving DecidableEq, Repr

/-- A sequence of at most `limit` bits. -/
structure Bitlist where
  bits : List Bool
  limit : Nat
  length_le : bits.length ≤ limit
deriving DecidableEq

namespace Bitvector

def unset (length : Nat) : Bitvector :=
  ⟨List.replicate length false⟩

def get? (v : Bitvector) (index : Nat) : Option Bool :=
  v.bits[index]?

/-- Writes the bit at `index` and answers the bit that was there. An index
outside the vector has no bit and changes nothing. -/
def set (v : Bitvector) (index : Nat) (bit : Bool) : Option Bool × Bitvector :=
  (v.get? index, ⟨v.bits.set index bit⟩)

end Bitvector

namespace Bitlist

/-- The list of `bits`, if `limit` allows that many. -/
def ofBits? (limit : Nat) (bits : List Bool) : Option Bitlist :=
  if h : bits.length ≤ limit then some ⟨bits, limit, h⟩ else none

def get? (l : Bitlist) (index : Nat) : Option Bool :=
  l.bits[index]?

/-- Writes the bit at `index` and answers the bit that was there. An index
outside the list has no bit and changes nothing. -/
def set (l : Bitlist) (index : Nat) (bit : Bool) : Option Bool × Bitlist :=
  (l.get? index, ⟨l.bits.set index bit, l.limit, by simpa using l.length_le⟩)

end Bitlist

end GenesisForge.Ssz
