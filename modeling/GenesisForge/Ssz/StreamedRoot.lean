import GenesisForge.Merkle.Hasher
import GenesisForge.Ssz.TreeRoot

/-!
# Tree roots from streams

Each tree of a value is hashed from a stream of pieces: the encodings of the
items where they are packed, the roots of the items where they are not, single
bytes for byte strings, and all bytes at once for bits. A fault of one of the
hashers is a fault of the whole.
-/

namespace GenesisForge.Ssz

open Merkle

def singleBytes (data : ByteArray) : List ByteArray :=
  data.data.toList.map fun byte => ByteArray.empty.push byte

mutual

/-- The tree root of a value as its hashers give it. -/
def Value.streamedRoot : Value → Except HasherFault Root
  | .uint width n => .ok (chunkAt (Bytes.littleEndian width n) 0)
  | .boolean b => .ok (FixedBytes.littleEndian 32 (if b then 1 else 0))
  | .root r => .ok r
  | .bytes data => streamRoot ((data.size + 31) / 32) (singleBytes data)
  | .byteList limit data =>
    (streamRoot ((limit + 31) / 32) (singleBytes data)).map (mixInLength · data.size)
  | .list element limit items =>
    ((itemPieces element items).bind (streamRoot (element.chunkCount limit))).map
      (mixInLength · items.length)
  | .vector element items | .array element items =>
    (itemPieces element items).bind (streamRoot (element.chunkCount items.length))
  | .bitvector bits => streamRoot (bitChunkCount bits.length) [Bits.pack bits]
  | .bitlist limit bits =>
    (streamRoot (bitChunkCount limit) [Bits.pack bits]).map (mixInLength · bits.length)
  | .container schema values => (rootPieces values).bind (streamRoot schema.fields.length)

/-- What the items of a collection write. -/
def itemPieces (element : Shape) (items : List Value) : Except HasherFault (List ByteArray) :=
  match element.perChunk? with
  | some _ => .ok (items.map Value.encode)
  | none => rootPieces items

def rootPieces : List Value → Except HasherFault (List ByteArray)
  | [] => .ok []
  | v :: rest =>
    v.streamedRoot.bind fun root => (rootPieces rest).map (root.bytes :: ·)

end

end GenesisForge.Ssz
