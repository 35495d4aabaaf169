import GenesisForge.Digest.Sha256

/-!
# Binary hash trees

The tree over a list of leaves has a depth fixed beforehand, and every leaf
that the list does not provide is the zero leaf. A layer is folded in pairs
into the layer above; a node missing at the end of a layer is the root of a
tree of zero leaves, so the zeros themselves are never laid out.
-/

namespace GenesisForge.Merkle

variable {α : Type}

/-- Folds a layer in pairs on top of `above`, which holds the new layer in
reverse. `zero` stands in for a missing right neighbour. -/
def pairUpOnto (combine : α → α → α) (zero : α) : List α → List α → List α
  | above, [] => above.reverse
  | above, [a] => (combine a zero :: above).reverse
  | above, a :: b :: rest => pairUpOnto combine zero (combine a b :: above) rest

def pairUp (combine : α → α → α) (zero : α) (layer : List α) : List α :=
  pairUpOnto combine zero [] layer

/-- The root `depth` layers above `layer`, whose missing nodes are `zero`. -/
def rootAbove (combine : α → α → α) : Nat → α → List α → α
  | 0, zero, layer => layer.headD zero
  | depth + 1, zero, layer =>
    rootAbove combine depth (combine zero zero) (pairUp combine zero layer)

/-- The least depth at which a tree has room for `leaves` leaves. -/
def depthFor (leaves : Nat) : Nat :=
  if leaves ≤ 1 then 0 else (leaves - 1).log2 + 1

/-- Trees deeper than this are refused: no root is defined above depth 49. -/
def maxDepth : Nat := 49

/-- The digest of two nodes side by side. -/
def sha256Pair (left right : Root) : Root :=
  sha256 (left.bytes ++ right.bytes)

/-- The root of the tree with room for `capacity` leaves. -/
def root (capacity : Nat) (leaves : List Root) : Root :=
  rootAbove sha256Pair (depthFor capacity) (FixedBytes.zero 32) leaves

/-- A root bound to a length, the length being a little-endian word of 32 bytes. -/
def mixInLength (r : Root) (length : Nat) : Root :=
  sha256Pair r (FixedBytes.littleEndian 32 length)

/-- The chunk of 32 bytes at byte `start`, filled up with zeros. -/
def chunkAt (bytes : ByteArray) (start : Nat) : Root :=
  let part := bytes.extract start (start + 32)
  if h : part.size = 32 then ⟨part, h⟩
  else
    ((FixedBytes.ofBytes? 32 (Bytes.appendFill 0 (32 - part.size) part)).getD
      (FixedBytes.zero 32))

/-- The chunks of a byte string, the last one filled up with zeros. -/
def chunks (bytes : ByteArray) : List Root :=
  (List.range ((bytes.size + 31) / 32)).map fun i => chunkAt bytes (32 * i)

end GenesisForge.Merkle
