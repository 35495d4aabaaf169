import GenesisForge.Bytes

/-!
# Shuffling indices

Every round pairs each index with another by a pivot and swaps the pair or
not, as a bit says that both of them look up at the greater of the two. Pivots
and bits come from a hash function of the seed and the round, which is an
argument here.
-/

namespace GenesisForge.Shuffle

/-- A hash function with values of 32 bytes. -/
abbrev Hash := ByteArray → Root

/-- The byte at an index, zero behind the end. -/
def byteAt (bytes : ByteArray) (i : Nat) : UInt8 :=
  bytes.data.getD i 0

variable (hash : Hash) (seed : Root)

/-- The seed with the number of the round behind it. -/
def roundKey (round : Nat) : ByteArray :=
  seed.bytes.push round.toUInt8

/-- The pivot of a round among `count` indices. -/
def pivot (round count : Nat) : Nat :=
  Bytes.littleEndianValue ((hash (roundKey seed round)).bytes.extract 0 8) % count

def partner (pivot count index : Nat) : Nat :=
  (pivot + count - index) % count

/-- The bit of a round at a position. Each hash gives the bits of 256
positions, and the number of the hash is cut to four bytes. -/
def swapBit (round position : Nat) : Bool :=
  let source := hash (roundKey seed round ++ Bytes.littleEndian 4 (position / 256))
  (byteAt source.bytes (position % 256 / 8)).toNat.testBit (position % 8)

/-- Where a round moves an index. -/
def step (count round index : Nat) : Nat :=
  let flip := partner (pivot hash seed round count) count index
  if swapBit hash seed round (max index flip) then flip else index

/-- Where all rounds together move an index. -/
def shuffledIndex (count rounds index : Nat) : Nat :=
  (List.range rounds).foldl (fun index round => step hash seed count round index) index

end GenesisForge.Shuffle
