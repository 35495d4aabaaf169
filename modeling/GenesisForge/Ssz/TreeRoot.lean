import GenesisForge.Ssz.Encode
import GenesisForge.Merkle

/-!
# Tree roots

Integers and booleans in a collection are packed into chunks of 32 bytes;
every other element stands for itself by its root. The leaves of a list fill a
tree sized by the limit of the list, and its length is mixed into the root, so
that lists of different lengths have different roots. The root of a container
is that of the tree over the roots of its fields.
-/

namespace GenesisForge.Ssz

/-- The number of chunks that `count` elements of the shape take. The sum is no word where
`count` is more than 2^64 - 32, and wraps around there in words. -/
def Shape.chunkCount (element : Shape) (count : Nat) : Nat :=
  match element.perChunk? with
  | some perChunk => (count + perChunk - 1) / perChunk
  | none => count

/-- The number of chunks that `count` bits take, bytes being counted first. -/
def bitChunkCount (count : Nat) : Nat :=
  ((count + 7) / 8 + 31) / 32

mutual

def Value.treeRoot : Value → Root
  | .uint width n => Merkle.chunkAt (Bytes.littleEndian width n) 0
  | .boolean b => FixedBytes.littleEndian 32 (if b then 1 else 0)
  | .root r => r
  | .bytes data => Merkle.root ((data.size + 31) / 32) (Merkle.chunks data)
  | .byteList limit data =>
    Merkle.mixInLength (Merkle.root ((limit + 31) / 32) (Merkle.chunks data)) data.size
  | .list element limit items =>
    Merkle.mixInLength (Merkle.root (element.chunkCount limit) (itemLeaves element items))
      items.length
  | .vector element items | .array element items =>
    Merkle.root (element.chunkCount items.length) (itemLeaves element items)
  | .bitvector bits =>
    Merkle.root (bitChunkCount bits.length) (Merkle.chunks (Bits.pack bits))
  | .bitlist limit bits =>
    Merkle.mixInLength (Merkle.root (bitChunkCount limit) (Merkle.chunks (Bits.pack bits)))
      bits.length
  | .container schema values => Merkle.root schema.fields.length (treeRoots [] values)

/-- The leaves that the items of a collection provide. -/
def itemLeaves (element : Shape) (items : List Value) : List Root :=
  match element.perChunk? with
  | some _ => Merkle.chunks (encodeInPlace ByteArray.empty items)
  | none => treeRoots [] items

/-- The roots of the values, behind the roots of `before` in reverse. -/
def treeRoots (before : List Root) : List Value → List Root
  | [] => before.reverse
  | v :: rest => treeRoots (v.treeRoot :: before) rest

end

mutual

/-- Whether every tree that the root of the value is made of stays within the
depth for which roots are defined. -/
def Value.hasRoot : Value → Bool
  | .byteList limit _ => decide (Merkle.depthFor ((limit + 31) / 32) ≤ Merkle.maxDepth)
  | .list element limit items =>
    decide (Merkle.depthFor (element.chunkCount limit) ≤ Merkle.maxDepth) && allHaveRoots items
  | .vector _ items | .array _ items => allHaveRoots items
  | .bitlist limit _ => decide (Merkle.depthFor (bitChunkCount limit) ≤ Merkle.maxDepth)
  | .container _ values => allHaveRoots values
  | .uint _ _ | .boolean _ | .root _ | .bytes _ | .bitvector _ => true

def allHaveRoots : List Value → Bool
  | [] => true
  | v :: rest => v.hasRoot && allHaveRoots rest

end

/-- The tree root of a value, if none of its trees is too deep. -/
def Value.treeRoot? (v : Value) : Option Root :=
  if v.hasRoot then some v.treeRoot else none

end GenesisForge.Ssz
